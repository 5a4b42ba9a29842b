import Mathlib.Data.List.Basic

/-!
# The bit stream of the LED strip

`Encode` of `internal/led` writes three bits for each bit of a pixel. Its accumulator is shifted and never masked.
-/

namespace Waypoint.Survey.Led

structure RGB where
  r : BitVec 8
  g : BitVec 8
  b : BitVec 8

def latchBytes : Nat := 64

structure Encoder where
  out : List (BitVec 8) := []
  acc : BitVec 32 := 0
  nbits : Nat := 0

namespace Encoder

/-- The inner loop of `putSymbol`, at a number of bits. -/
def flush (out : List (BitVec 8)) (acc : BitVec 32) : Nat → Encoder
  | n + 8 => flush (out ++ [(acc >>> n).setWidth 8]) acc n
  | n => ⟨out, acc, n⟩

def putSymbol (e : Encoder) (bit : BitVec 8) : Encoder :=
  let sym : BitVec 32 := if bit ≠ 0 then 0b110 else 0b100
  flush e.out (e.acc <<< 3 ||| sym) (e.nbits + 3)

def putChannel (e : Encoder) (ch : BitVec 8) : Encoder :=
  (List.range 8).reverse.foldl (fun e i => e.putSymbol ((ch >>> i) &&& 1)) e

def putPixel (e : Encoder) (px : RGB) : Encoder := [px.g, px.r, px.b].foldl putChannel e

end Encoder

def encode (pixels : List RGB) : List (BitVec 8) :=
  (pixels.foldl Encoder.putPixel {}).out ++ List.replicate latchBytes 0

/-- The lowest `n` bits, the most significant first. -/
def lowBits {w : Nat} (n : Nat) (x : BitVec w) : List Bool := (List.range n).reverse.map x.getLsbD

def symbol (bit : Bool) : List Bool := [true, bit, false]

def RGB.bits (px : RGB) : List Bool := [px.g, px.r, px.b].flatMap (lowBits 8)

theorem lowBits_symbol (acc : BitVec 32) (bit : Bool) {n : Nat} (hn : n < 8) :
    lowBits (n + 3) (acc <<< 3 ||| if bit = true then 0b110 else 0b100) = lowBits n acc ++ symbol bit := by
  rw [lowBits, Nat.add_comm, List.range_add, List.reverse_append, List.map_append]
  congr 1
  · rw [lowBits, ← List.map_reverse, List.map_map]
    refine List.map_congr_left fun i hi => ?_
    rw [List.mem_reverse, List.mem_range] at hi
    have hsym : ∀ bit, ∀ i < 8, (if bit = true then 0b110 else 0b100 : BitVec 32).getLsbD (3 + i) = false := by decide
    rw [Function.comp_apply, BitVec.getLsbD_or, BitVec.getLsbD_shiftLeft, hsym bit i (Nat.lt_trans hi hn)]
    simp [show 3 + i < 32 by omega]
  · cases bit <;> simp [List.range, List.range.loop, symbol]

theorem lowBits_byte (acc : BitVec 32) (n : Nat) :
    lowBits (n + 8) acc = lowBits 8 ((acc >>> n).setWidth 8) ++ lowBits n acc := by
  rw [lowBits, List.range_add, List.reverse_append, List.map_append, ← List.map_reverse, List.map_map]
  refine congrArg (· ++ _) (List.map_congr_left fun i hi => ?_)
  rw [List.mem_reverse, List.mem_range] at hi
  simp [hi]

/-- The bytes written and the bits that are left over are the symbols of the bits so far. -/
structure Encoder.Spells (e : Encoder) (bs : List Bool) : Prop where
  few : e.nbits < 8
  bits : e.out.flatMap (lowBits 8) ++ lowBits e.nbits e.acc = bs.flatMap symbol

theorem flush_spells (bs : List Bool) (acc : BitVec 32) (n : Nat) (out : List (BitVec 8))
    (h : out.flatMap (lowBits 8) ++ lowBits n acc = bs.flatMap symbol) : (Encoder.flush out acc n).Spells bs := by
  fun_induction Encoder.flush out acc n with
  | case1 out n ih =>
    refine ih ?_
    rw [← h, lowBits_byte, List.flatMap_append, List.append_assoc, List.flatMap_singleton]
  | case2 out n hn => exact ⟨Nat.lt_of_not_le fun h8 => hn (n - 8) (Nat.sub_add_cancel h8).symm, h⟩

variable {e : Encoder} {bs : List Bool}

theorem Encoder.Spells.putSymbol (h : e.Spells bs) (bit : BitVec 8) : (e.putSymbol bit).Spells (bs ++ [decide (bit ≠ 0)]) := by
  refine flush_spells _ _ _ _ ?_
  have hlow := lowBits_symbol e.acc (decide (bit ≠ 0)) h.few
  simp only [decide_eq_true_eq] at hlow
  rw [hlow, ← List.append_assoc, h.bits, List.flatMap_append, List.flatMap_singleton]

theorem Encoder.Spells.putChannel (h : e.Spells bs) (ch : BitVec 8) : (e.putChannel ch).Spells (bs ++ lowBits 8 ch) := by
  have hbit (i : Nat) : decide ((ch >>> i) &&& 1 ≠ 0) = ch.getLsbD i := by
    rw [show (1 : BitVec 8) = 1#8 from rfl, BitVec.and_one_eq_setWidth_ofBool_getLsbD, BitVec.getLsbD_ushiftRight, Nat.add_zero]
    cases ch.getLsbD i <;> rfl
  have hfold : ∀ (is : List Nat) {e : Encoder} {bs : List Bool}, e.Spells bs →
      (is.foldl (fun e i => e.putSymbol ((ch >>> i) &&& 1)) e).Spells (bs ++ is.map ch.getLsbD) := by
    intro is
    induction is with
    | nil => intro e bs h; simpa using h
    | cons i is ih =>
      intro e bs h
      have hnext := h.putSymbol ((ch >>> i) &&& 1)
      rw [hbit] at hnext
      simpa using ih hnext
  exact hfold _ h

theorem Encoder.Spells.putPixels (h : e.Spells bs) (pixels : List RGB) :
    (pixels.foldl Encoder.putPixel e).Spells (bs ++ pixels.flatMap RGB.bits) := by
  induction pixels generalizing e bs with
  | nil => simpa using h
  | cons px pixels ih =>
    have hpixels := ih (((h.putChannel px.g).putChannel px.r).putChannel px.b)
    rw [List.foldl_cons, Encoder.putPixel, List.flatMap_cons, RGB.bits]
    simp only [List.foldl_cons, List.foldl_nil, List.flatMap_cons, List.flatMap_nil, List.append_nil, List.append_assoc] at hpixels ⊢
    exact hpixels

/-- For every list of pixels: nine bytes each, then the latch gap; and the bits of the pixels' bytes, read as symbols, are those of the pixels in the order G, R, B. -/
theorem encode_spells (pixels : List RGB) :
    (encode pixels).length = 9 * pixels.length + 64 ∧ (encode pixels).drop (9 * pixels.length) = List.replicate 64 0 ∧
      ((encode pixels).take (9 * pixels.length)).flatMap (lowBits 8) = (pixels.flatMap RGB.bits).flatMap symbol := by
  have hempty : Encoder.Spells {} [] := ⟨by decide, rfl⟩
  obtain ⟨hfew, hbits⟩ := hempty.putPixels pixels
  rw [List.nil_append] at hbits
  unfold encode
  generalize pixels.foldl Encoder.putPixel {} = e at *
  have hlength := congrArg List.length hbits
  have hpixel (px : RGB) : px.bits.length = 24 := by simp [RGB.bits, lowBits]
  simp only [List.length_append, List.length_flatMap, lowBits, symbol, List.length_map, List.length_reverse, List.length_range,
    List.length_cons, List.length_nil, List.map_const', List.sum_replicate_nat, hpixel] at hlength
  have hout : e.out.length = 9 * pixels.length := by omega
  have hnone : e.nbits = 0 := by omega
  rw [hnone] at hbits
  refine ⟨by simp [hout, latchBytes], ?_, ?_⟩
  · rw [← hout, List.drop_left, latchBytes]
  · rw [← hout, List.take_left, ← hbits]
    exact (List.append_nil _).symm

end Waypoint.Survey.Led
