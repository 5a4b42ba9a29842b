import Waypoint.Core.Servo.ControlServer
import Waypoint.Core.Servo.Model

/-!
# The platform-servo guard

The server never writes to an id on its deny list, whatever is asked of it and whatever the bus answers. Commands and sync goals are filtered by id.
-/

namespace Waypoint.Core

open Base Bus

/-- The ids of the per-servo chunks of a sync write; a short tail is dropped. -/
def syncIds (per : Nat) : Nat → List UInt8 → List JointId
  | 0, _ => []
  | fuel + 1, data =>
    match data with
    | [] => []
    | id :: rest => if rest.length < per then [] else id :: syncIds per fuel (rest.drop per)

namespace Frame

def targets (f : Frame) : List JointId :=
  match f.instruction, f.params with
  | .writeData, _ => [f.id]
  | .syncWrite, _ :: per :: data => syncIds per.toNat data.length data
  | _, _ => []

/-- The frame writes to no denied servo, and it is not one of the deferred writes. -/
structure Spares (deny : List UInt8) (f : Frame) : Prop where
  targets : ∀ id ∈ f.targets, id ∉ deny
  immediate : f.instruction = .readData ∨ f.instruction = .writeData ∨ f.instruction = .syncWrite

theorem spares_read (deny : List UInt8) (id : JointId) (params : List UInt8) : Spares deny ⟨id, .readData, params⟩ :=
  ⟨fun _ h => (by cases h), .inl rfl⟩

theorem spares_write {deny : List UInt8} {id : JointId} (hid : id ∉ deny) (params : List UInt8) :
    Spares deny ⟨id, .writeData, params⟩ :=
  ⟨List.forall_mem_singleton.mpr hid, .inr (.inl rfl)⟩

end Frame

theorem syncIds_goals (goals : List (JointId × UInt16)) (fuel : Nat) (hfuel : goals.length ≤ fuel) :
    syncIds 2 fuel (goals.flatMap fun g => [g.1, lowByte g.2, highByte g.2]) = goals.map (·.1) := by
  induction goals generalizing fuel with
  | nil => cases fuel <;> rfl
  | cons g goals ih =>
    cases fuel with
    | zero => simp at hfuel
    | succ fuel =>
      rw [List.flatMap_cons, List.map_cons, List.cons_append, syncIds, if_neg (by simp)]
      exact congrArg (g.1 :: ·) (ih fuel (by simpa using hfuel))

theorem Frame.spares_syncWrite {deny : List UInt8} {goals : List (JointId × UInt16)} (hgoals : ∀ g ∈ goals, g.1 ∉ deny) :
    Spares deny (buildSyncWriteGoalPositions goals) := by
  refine ⟨fun id hid => ?_, .inr (.inr rfl)⟩
  have hlength : goals.length ≤ (goals.flatMap fun g => [g.1, lowByte g.2, highByte g.2]).length := by
    rw [List.length_flatMap]
    simp
    omega
  have htargets : (buildSyncWriteGoalPositions goals).targets = goals.map (·.1) := syncIds_goals goals _ hlength
  rw [htargets] at hid
  obtain ⟨g, hg, rfl⟩ := List.mem_map.mp hid
  exact hgoals g hg

namespace ServoControlServer

variable {σ : Type} {w : Wire σ} {deny : List UInt8}

theorem uses_writeField {α : Type} {build : α → Frame} (hbuild : ∀ v, (build v).Spares deny) (field : Option α) :
    Uses w (Frame.Spares deny) (writeField w build field) := by
  cases field with
  | none => exact uses_pure _
  | some value => exact uses_bind (uses_exchange (hbuild value)) fun _ => uses_pure _

theorem uses_setTuning {id : JointId} (hid : id ∉ deny) (t : Tuning) :
    Uses w (Frame.Spares deny) (Bus.setTuning w id t) := by
  have hfields : ∀ {α : Type} {build : α → Frame}, (∀ v, (build v).Spares deny) → ∀ field : Option α,
      Uses w (Frame.Spares deny) (writeField w build field) := uses_writeField
  have heeprom : Uses w (Frame.Spares deny) (writeEepromFields w id t) := by
    unfold writeEepromFields
    split
    · refine uses_bind (uses_exchange (Frame.spares_write hid _)) fun _ => ?_
      refine uses_bind (hfields (fun _ => Frame.spares_write hid _) _) fun _ => ?_
      refine uses_bind (hfields (fun _ => Frame.spares_write hid _) _) fun _ => ?_
      refine uses_bind (hfields (fun _ => Frame.spares_write hid _) _) fun _ => ?_
      refine uses_bind (hfields (fun _ => Frame.spares_write hid _) _) fun _ => ?_
      exact uses_bind (uses_exchange (Frame.spares_write hid _)) fun _ => uses_pure _
    · exact uses_pure _
  refine uses_bind heeprom fun _ => ?_
  refine uses_bind (hfields (fun _ => Frame.spares_write hid _) _) fun _ => ?_
  exact uses_bind (hfields (fun _ => Frame.spares_write hid _) _) fun _ => uses_pure _

theorem uses_applyOp {id : JointId} (hid : id ∉ deny) (op : ServoOp) :
    Uses w (Frame.Spares deny) (applyOp w id op) := by
  have hwrite : ∀ params, Uses w (Frame.Spares deny) (command w ⟨id, .writeData, params⟩) := fun params =>
    uses_command (Frame.spares_write hid params)
  cases op with
  | setMode mode =>
    refine uses_bind (hwrite _) fun _ => uses_bind (hwrite _) fun _ => ?_
    exact uses_bind (hwrite _) fun _ => uses_pure _
  | setTorqueEnable on =>
    cases on with
    | true =>
      have henable : Uses w (Frame.Spares deny) (enableTorqueHoldingPosition w id) :=
        uses_enableTorqueHoldingPosition (Frame.spares_read _ _ _) (Frame.spares_read _ _ _)
          (fun _ => Frame.spares_write hid _) (Frame.spares_write hid _)
      exact uses_bind henable fun _ => uses_pure _
    | false => exact uses_bind (hwrite _) fun _ => uses_pure _
  | setGoalPosition raw => exact uses_bind (hwrite _) fun _ => uses_pure _
  | setTorqueLimit raw => exact uses_bind (hwrite _) fun _ => uses_pure _
  | setAngleLimits minRaw maxRaw =>
    have hlimits : Uses w (Frame.Spares deny) (Bus.setAngleLimits w id minRaw.toUInt16 maxRaw.toUInt16) := by
      refine uses_bind (uses_exchange (Frame.spares_write hid _)) fun _ => ?_
      refine uses_bind (uses_exchange (Frame.spares_write hid _)) fun _ => ?_
      exact uses_bind (uses_exchange (Frame.spares_write hid _)) fun _ => uses_pure _
    exact uses_bind hlimits fun _ => uses_pure _
  | setGoalSpeed raw => exact uses_bind (hwrite _) fun _ => uses_pure _
  | setGoalVelocity raw => exact uses_bind (hwrite _) fun _ => uses_pure _
  | setTuning t => exact uses_bind (uses_setTuning hid _) fun _ => uses_pure _
  | setOvercurrentLimit raw => exact uses_pure _
  | notSet => exact uses_pure _

theorem not_mem_of_not_denied {id : UInt32} (h : isDenied deny id = false) : id.toUInt8 ∉ deny := by
  simpa [isDenied] using h

theorem uses_handleControl (estopped : Bool) (c : ServoControl) (srv : ServoControlServer) :
    Uses w (Frame.Spares deny) (handleControl w deny estopped c srv) := by
  unfold handleControl
  split
  · exact uses_pure _
  split
  · exact uses_pure _
  rename_i hdenied
  have hid : c.servoId.toUInt8 ∉ deny := not_mem_of_not_denied (by simpa using hdenied)
  split
  · exact uses_pure _
  · split
    · exact uses_pure _
    · exact uses_bind (uses_applyOp hid c.op) fun _ => uses_pure _

theorem handleControl_ceil (estopped : Bool) (c : ServoControl) (srv : ServoControlServer) (b : Bus σ) {id : UInt32}
    (hid : isDenied deny id = true) :
    ((handleControl w deny estopped c srv).run b).1.overcurrentCeil id = srv.overcurrentCeil id := by
  unfold handleControl
  split
  · rfl
  split
  · rfl
  rename_i hdenied
  split
  · rfl
  split
  · refine if_neg ?_
    rintro rfl
    exact hdenied hid
  · rfl

theorem uses_handleSync (estopped : Bool) (goals : List ServoGoal) :
    Uses w (Frame.Spares deny) (handleSync w deny estopped goals) := by
  have hgoals : ∀ g ∈ admittedGoals deny goals, g.1 ∉ deny := by
    intro g hg
    obtain ⟨goal, hgoal, rfl⟩ := List.mem_map.mp hg
    have hadmitted := (List.mem_filter.mp hgoal).2
    rw [Bool.and_eq_true, Bool.not_eq_true'] at hadmitted
    exact not_mem_of_not_denied hadmitted.2
  have hsync : Uses w (Frame.Spares deny) (syncWriteGoalPositions w (admittedGoals deny goals)) := by
    unfold syncWriteGoalPositions
    split
    · exact uses_pure _
    · exact uses_bind (uses_sendNoReply (Frame.spares_syncWrite hgoals)) fun _ => uses_pure _
  unfold handleSync
  split
  · exact uses_pure _
  · exact uses_bind hsync fun _ => uses_pure _

end ServoControlServer

inductive ServoCall
  | control (estopped : Bool) (c : ServoControl)
  | sync (estopped : Bool) (goals : List ServoGoal)
  | read (servoId : UInt32)

def ServoCall.handle {σ : Type} (w : Wire σ) (deny : List UInt8) (s : ServoControlServer × Bus σ) :
    ServoCall → ServoControlServer × Bus σ
  | .control estopped c => (ServoControlServer.handleControl w deny estopped c s.1).run s.2
  | .sync estopped goals => (s.1, ((ServoControlServer.handleSync w deny estopped goals).run s.2).2)
  | .read servoId => (s.1, ((ServoControlServer.handleRead w servoId s.1).run s.2).2)

def ServoControlServer.session {σ : Type} (w : Wire σ) (deny : List UInt8) (b : Bus σ) (calls : List ServoCall) :
    ServoControlServer × Bus σ :=
  calls.foldl (fun s call => call.handle w deny s) ({}, b)

section Sessions

open ServoControlServer

variable {σ : Type} {w : Wire σ} {deny : List UInt8}

/-- No denied id has a ceiling. -/
def Unceiled (deny : List UInt8) (srv : ServoControlServer) : Prop :=
  ∀ id, isDenied deny id = true → srv.overcurrentCeil id = 0

theorem unceiled_handle {s : ServoControlServer × Bus σ} (h : Unceiled deny s.1) (call : ServoCall) :
    Unceiled deny (call.handle w deny s).1 := by
  cases call with
  | control estopped c => exact fun id hid => (handleControl_ceil estopped c s.1 s.2 hid).trans (h id hid)
  | sync estopped goals => exact h
  | read servoId => exact h

theorem handle_keeps {r : Bus σ → Bus σ → Prop} [Std.Refl r] [IsTrans (Bus σ) r]
    (hex : ∀ f, f.Spares deny → Keeps r (exchange w f)) (hsend : ∀ f, f.Spares deny → Keeps r (sendNoReply w f))
    {s : ServoControlServer × Bus σ} (h : Unceiled deny s.1) (call : ServoCall) : r s.2 (call.handle w deny s).2 := by
  cases call with
  | control estopped c => exact uses_handleControl estopped c s.1 r hex hsend s.2
  | sync estopped goals => exact uses_handleSync estopped goals r hex hsend s.2
  | read servoId =>
    refine uses_handleRead (Frame.spares_read _ _ _) (fun hceil => Frame.spares_write ?_ _) r hex hsend s.2
    refine not_mem_of_not_denied (Bool.eq_false_iff.mpr fun hdenied => ?_)
    exact hceil (h servoId hdenied)

theorem session_keeps {r : Bus σ → Bus σ → Prop} [Std.Refl r] [IsTrans (Bus σ) r]
    (hex : ∀ f, f.Spares deny → Keeps r (exchange w f)) (hsend : ∀ f, f.Spares deny → Keeps r (sendNoReply w f))
    (b : Bus σ) (calls : List ServoCall) :
    Unceiled deny (session w deny b calls).1 ∧ r b (session w deny b calls).2 := by
  have hstart : Unceiled deny {} := fun _ _ => rfl
  refine List.foldlRecOn calls _ (motive := fun s : ServoControlServer × Bus σ => Unceiled deny s.1 ∧ r b s.2)
    ⟨hstart, refl_of r b⟩ ?_
  rintro s ⟨hceil, hbus⟩ call -
  exact ⟨unceiled_handle hceil call, trans_of r hbus (handle_keeps hex hsend hceil call)⟩

/-- Whatever modules ask for and whatever the bus answers, no write goes to a denied servo, and no denied servo gets a ceiling. -/
theorem denied_servos_spared (w : Wire σ) (deny : List UInt8) (b : Bus σ) (calls : List ServoCall) :
    ∃ fs, (session w deny b calls).2.log = b.log ++ fs ∧
      (∀ f ∈ fs, f.instruction = .writeData → f.id ∉ deny) ∧
      (∀ f ∈ fs, f.instruction = .syncWrite → ∀ id ∈ f.targets, id ∉ deny) ∧
      ∀ id, isDenied deny id = true → (session w deny b calls).1.overcurrentCeil id = 0 := by
  obtain ⟨hceil, fs, hlog, hspares⟩ := session_keeps (r := Grows (Frame.Spares deny)) (w := w)
    (fun _ => keeps_grows_exchange) (fun _ => keeps_grows_sendNoReply) b calls
  refine ⟨fs, hlog, fun f hf hwrite => ?_, fun f hf _ => (hspares f hf).targets, hceil⟩
  refine (hspares f hf).targets f.id ?_
  unfold Frame.targets
  rw [hwrite]
  exact List.mem_singleton_self f.id

end Sessions

namespace ServoModel

theorem servos_writeReg_of_ne (m : ServoModel) {id target : JointId} (h : id ≠ target) (addr : UInt8) (data : List UInt8) :
    (m.writeReg target addr data).2.servos id = m.servos id := by
  unfold writeReg
  split
  · rfl
  split
  · rfl
  split
  · rfl
  split
  · rfl
  · split
    · rfl
    · exact if_neg h

end ServoModel

end Waypoint.Core
