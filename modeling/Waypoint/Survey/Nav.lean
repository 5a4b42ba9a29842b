import Mathlib.Algebra.Order.Floor.Semiring
import Mathlib.Tactic.FieldSimp
import Mathlib.Tactic.Linarith

/-!
# Planar geometry of the survey module

`internal/nav`: the dead-reckoning pose and the helpers of the mission engine, over any ordered field whose elements are bounded by whole numbers. The trigonometry of the standard library is a parameter.
-/

namespace Waypoint.Survey

/-- The functions of the `math` package that the survey module calls, and its value of pi. -/
structure MathPackage (K : Type) [Zero K] [LT K] where
  pi : K
  cos : K → K
  sin : K → K
  atan2 : K → K → K
  hypot : K → K → K
  pi_pos : 0 < pi

structure Vec (K : Type) where
  x : K
  y : K

structure Pose (K : Type) where
  x : K
  y : K
  theta : K

def Pose.position {K : Type} (p : Pose K) : Vec K := ⟨p.x, p.y⟩

variable {K : Type} [Field K] [LinearOrder K] [IsStrictOrderedRing K] [FloorSemiring K]

def unwindDown (pi : K) : Nat → K → K
  | 0, a => a
  | n + 1, a => if pi < a then unwindDown pi n (a - 2 * pi) else a

def unwindUp (pi : K) : Nat → K → K
  | 0, a => a
  | n + 1, a => if a ≤ -pi then unwindUp pi n (a + 2 * pi) else a

variable (M : MathPackage K)

def wrapAngle (a : K) : K :=
  let a := unwindDown M.pi ⌈a / M.pi⌉₊ a
  unwindUp M.pi ⌈-a / M.pi⌉₊ a

def Pose.integrate (p : Pose K) (vx yawRate dt : K) : Pose K where
  x := p.x + vx * M.cos p.theta * dt
  y := p.y + vx * M.sin p.theta * dt
  theta := wrapAngle M (p.theta + yawRate * dt)

def dist (a b : Vec K) : K := M.hypot (b.x - a.x) (b.y - a.y)

def bearingTo (p : Pose K) (t : Vec K) : K := wrapAngle M (M.atan2 (t.y - p.y) (t.x - p.x) - p.theta)

end Waypoint.Survey
