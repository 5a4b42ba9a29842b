import Waypoint.Core.Nats.Parser

/-!
# The parser on bytes that no server sends

Whatever bytes arrive, the parser splits them into lines and counted payloads in one way.
-/

namespace Waypoint.Core.Nats

open Base

inductive LineKind
  | void
  | frame (f : Frame)
  | header (msg : Frame) (size : List UInt8)
  | unknown

def lineKind (line : List UInt8) : LineKind :=
  if line.isEmpty then .void
  else if startsWith line (ascii "INFO ") then .frame { kind := .info, payload := line.drop 5 }
  else if line = ascii "PING" then .frame { kind := .ping }
  else if line = ascii "PONG" then .frame { kind := .pong }
  else if line = ascii "+OK" then .frame { kind := .ok }
  else if startsWith line (ascii "-ERR ") then .frame { kind := .err, payload := line.drop 5 }
  else if startsWith line (ascii "MSG ") then
    match Parser.msgHeader (splitSpace (line.drop 4)) with
    | none => .void
    | some (msg, size) => .header msg size
  else .unknown

namespace Parser

theorem onLine_eq (p : Parser) (line : List UInt8) :
    p.onLine line =
      match lineKind line with
      | .void => .ok (some (none, p))
      | .frame f => .ok (some (some f, p))
      | .header msg size => (stoul size).bind fun len => (p.await msg len).takePayload.map some
      | .unknown => .ok none := by
  unfold onLine lineKind
  iterate 6
    split
    · rfl
  split
  · cases msgHeader (splitSpace (line.drop 4)) with
    | none => rfl
    | some header => rfl
  · rfl

def dropLine (p : Parser) (i : Nat) : Parser := { p with buf := p.buf.drop (i + 2) }

section Next

variable {p : Parser} {i : Nat}

theorem length_dropLine_lt (h : findCRLF p.buf = some i) : (p.dropLine i).buf.length < p.buf.length := by
  have hbound := findCRLF_bound h
  simp only [dropLine, List.length_drop]
  omega

theorem next_waiting (h : p.waitingForPayload = true) : p.next = p.takePayload := by rw [next, if_pos h]

theorem next_of_no_line (hidle : p.waitingForPayload = false) (h : findCRLF p.buf = none) : p.next = .ok (none, p) := by
  rw [next, if_neg (by simp [hidle])]
  split
  · rfl
  · rename_i hsome
    rw [h] at hsome
    cases hsome

theorem next_of_line (hidle : p.waitingForPayload = false) (h : findCRLF p.buf = some i) :
    p.next =
      match lineKind (p.buf.take i) with
      | .void => .ok (none, p.dropLine i)
      | .frame f => .ok (some f, p.dropLine i)
      | .header msg size => (stoul size).bind fun len => ((p.dropLine i).await msg len).takePayload
      | .unknown => (p.dropLine i).next := by
  rw [next, if_neg (by simp [hidle])]
  split
  · rename_i hnone
    rw [h] at hnone
    cases hnone
  rename_i j hsome
  obtain rfl : i = j := Option.some.inj (h.symm.trans hsome)
  rw [onLine_eq]
  cases lineKind (p.buf.take i) with
  | void => rfl
  | frame f => rfl
  | unknown => rfl
  | header msg size =>
    dsimp only
    cases stoul size with
    | error e => rfl
    | ok len =>
      rw [show ((Except.ok len).bind fun len => Except.map some
          (({ p with buf := p.buf.drop (i + 2) } : Parser).await msg len).takePayload) =
        (((p.dropLine i).await msg len).takePayload).map some from rfl]
      change _ = ((p.dropLine i).await msg len).takePayload
      cases ((p.dropLine i).await msg len).takePayload <;> rfl

end Next

end Parser

/-- The bytes behind the line at which a call gives up: the first line that is known, if it is void. -/
def givesUp (s : List UInt8) : Option (List UInt8) :=
  match _hline : findCRLF s with
  | none => none
  | some i =>
    match lineKind (s.take i) with
    | .void => some (s.drop (i + 2))
    | .unknown => givesUp (s.drop (i + 2))
    | _ => none
termination_by s.length
decreasing_by
  have hbound := Parser.findCRLF_bound _hline
  rw [List.length_drop]
  omega

variable {s : List UInt8} {i : Nat}

theorem givesUp_of_no_line (h : findCRLF s = none) : givesUp s = none := by
  rw [givesUp]
  split
  · rfl
  · rename_i hsome
    rw [h] at hsome
    cases hsome

theorem givesUp_of_line (h : findCRLF s = some i) :
    givesUp s =
      match lineKind (s.take i) with
      | .void => some (s.drop (i + 2))
      | .unknown => givesUp (s.drop (i + 2))
      | _ => none := by
  rw [givesUp]
  split
  · rename_i hnone
    rw [h] at hnone
    cases hnone
  · rename_i j hsome
    obtain rfl : i = j := Option.some.inj (h.symm.trans hsome)
    rfl

namespace Parser

/-- A call finds no complete frame. -/
def Quiet (p : Parser) : Prop :=
  if p.waitingForPayload then p.buf.length < p.pendingPayloadLen + 2 else findCRLF p.buf = none

instance (p : Parser) : Decidable p.Quiet := by
  unfold Quiet
  infer_instance

theorem quiet_takePayload {p q : Parser} (hp : p.waitingForPayload = true) (h : p.takePayload = .ok (none, q)) :
    q.Quiet := by
  unfold takePayload at h
  dsimp only at h
  split at h
  · rename_i hshort
    cases h
    rw [Quiet, if_pos hp]
    exact Nat.lt_of_lt_of_le hshort (Nat.mod_le _ _)
  · split at h
    · cases h
    · cases h

end Parser

theorem quiet_iff_of_idle {p q : Parser} (hidle : p.waitingForPayload = false) (h : p.next = .ok (none, q)) :
    q.Quiet ↔ ∀ rest, givesUp p.buf = some rest → findCRLF rest = none := by
  induction hsize : p.buf.length using Nat.strong_induction_on generalizing p with
  | _ size ih =>
    cases hline : findCRLF p.buf with
    | none =>
      rw [Parser.next_of_no_line hidle hline] at h
      cases h
      rw [givesUp_of_no_line hline, Parser.Quiet, if_neg (by simp [hidle])]
      exact iff_of_true hline fun rest hrest => by cases hrest
    | some i =>
      rw [Parser.next_of_line hidle hline] at h
      rw [givesUp_of_line hline]
      cases hkind : lineKind (p.buf.take i) with
      | void =>
        rw [hkind] at h
        cases h
        have hquiet : (p.dropLine i).Quiet ↔ findCRLF (p.buf.drop (i + 2)) = none := by
          rw [Parser.Quiet, if_neg (by simp [Parser.dropLine, hidle])]
          rfl
        simp only [hquiet, Option.some.injEq, forall_eq']
      | frame f =>
        rw [hkind] at h
        cases h
      | header msg len =>
        rw [hkind] at h
        obtain ⟨n, -, htake⟩ := bind_eq_ok.mp h
        refine iff_of_true (Parser.quiet_takePayload rfl htake) fun rest hrest => ?_
        cases hrest
      | unknown =>
        rw [hkind] at h
        exact ih _ (hsize ▸ Parser.length_dropLine_lt hline) (p := p.dropLine i) hidle h rfl

/-- A call that returns nothing has looked at everything there is, unless it gave up at a line with more lines behind it. -/
theorem parser_quiet_iff (p q : Parser) (h : p.next = .ok (none, q)) :
    q.Quiet ↔ (p.waitingForPayload = false → ∀ rest, givesUp p.buf = some rest → findCRLF rest = none) := by
  cases hwait : p.waitingForPayload with
  | true =>
    rw [Parser.next_waiting hwait] at h
    exact iff_of_true (Parser.quiet_takePayload hwait h) fun hidle => by cases hidle
  | false =>
    rw [forall_prop_of_true rfl]
    exact quiet_iff_of_idle hwait h

theorem parser_quiet_iff_front :
    (({} : Parser).feed (ascii "HI" ++ crlf ++ ascii "PIN")).next = .ok (none, { buf := ascii "PIN" }) ∧
      ({ buf := ascii "PIN" } : Parser).Quiet := by
  have hnext : (({} : Parser).feed (ascii "HI" ++ crlf ++ ascii "PIN")).next = .ok (none, { buf := ascii "PIN" }) := by
    rw [Parser.next_of_line (i := 2) rfl (by decide)]
    exact Parser.next_of_no_line rfl (by decide)
  refine ⟨hnext, (parser_quiet_iff _ _ hnext).mpr fun _ rest hrest => ?_⟩
  have hnone : givesUp (ascii "HI" ++ crlf ++ ascii "PIN") = none := by
    rw [givesUp_of_line (i := 2) (by decide)]
    exact givesUp_of_no_line (by decide)
  rw [show (({} : Parser).feed (ascii "HI" ++ crlf ++ ascii "PIN")).buf = ascii "HI" ++ crlf ++ ascii "PIN" from rfl, hnone]
    at hrest
  cases hrest

/-- An empty line, or a header with one field, in front of a `PING`: the reader waits for more bytes with the `PING` in the buffer. -/
theorem ping_left_in_buffer :
    (∀ line ∈ [[], ascii "MSG hello"],
      (({} : Parser).feed (line ++ crlf ++ ascii "PING" ++ crlf)).next = .ok (none, { buf := ascii "PING" ++ crlf }) ∧
        ({} : Parser).readLoop [line ++ crlf ++ ascii "PING" ++ crlf] = .ok ([], { buf := ascii "PING" ++ crlf })) ∧
      ¬({ buf := ascii "PING" ++ crlf } : Parser).Quiet ∧
        ({ buf := ascii "PING" ++ crlf } : Parser).next = .ok (some { kind := .ping }, {}) := by
  have hnext : ∀ line ∈ [[], ascii "MSG hello"],
      (({} : Parser).feed (line ++ crlf ++ ascii "PING" ++ crlf)).next = .ok (none, { buf := ascii "PING" ++ crlf }) := by
    intro line hline
    simp only [List.mem_cons, List.not_mem_nil, or_false] at hline
    rcases hline with rfl | rfl
    · rw [Parser.next_of_line (i := 0) rfl (by decide)]
      rfl
    · rw [Parser.next_of_line (i := 9) rfl (by decide)]
      rfl
  refine ⟨fun line hline => ⟨hnext line hline, ?_⟩, by decide, ?_⟩
  · rw [Parser.readLoop, List.foldlM_cons, Parser.drain_of_none (hnext line hline)]
    rfl
  · rw [Parser.next_of_line (i := 4) rfl (by decide)]
    rfl

/-- Lines and payloads taken off in turn, every header has a size that `std::stoul` takes and that leaves room for the line end. -/
def sizesOk (s : List UInt8) : Bool :=
  match _hline : findCRLF s with
  | none => true
  | some i =>
    match lineKind (s.take i) with
    | .header _ size =>
      match stoul size with
      | .error _ => false
      | .ok len => decide (len + 2 < sizeLimit) && sizesOk (s.drop (i + 2 + (len + 2)))
    | _ => sizesOk (s.drop (i + 2))
termination_by s.length
decreasing_by
  all_goals
    have hbound := Parser.findCRLF_bound _hline
    rw [List.length_drop]
    omega

theorem sizesOk_of_no_line (h : findCRLF s = none) : sizesOk s = true := by
  rw [sizesOk]
  split
  · rfl
  · rename_i hsome
    rw [h] at hsome
    cases hsome

theorem sizesOk_of_line (h : findCRLF s = some i) :
    sizesOk s =
      match lineKind (s.take i) with
      | .header _ size =>
        match stoul size with
        | .error _ => false
        | .ok len => decide (len + 2 < sizeLimit) && sizesOk (s.drop (i + 2 + (len + 2)))
      | _ => sizesOk (s.drop (i + 2)) := by
  rw [sizesOk]
  split
  · rename_i hnone
    rw [h] at hnone
    cases hnone
  · rename_i j hsome
    obtain rfl : i = j := Option.some.inj (h.symm.trans hsome)
    rfl

inductive Call
  | feed (data : List UInt8)
  | next

def fed (cs : List Call) : List UInt8 :=
  cs.flatMap fun
    | .feed data => data
    | .next => []

namespace Parser

def call (p : Parser) : Call → Except Thrown Parser
  | .feed data => .ok (p.feed data)
  | .next => p.next.map Prod.snd

def calls (p : Parser) (cs : List Call) : Except Thrown Parser := cs.foldlM call p

/-- The size that is waited for makes the sum with the line end wrap around. -/
def Wraps (p : Parser) : Prop := p.waitingForPayload = true ∧ sizeLimit ≤ p.pendingPayloadLen + 2

/-- With the bytes still to come, what is left to parse has only good sizes. -/
inductive Sound (rest : List UInt8) (p : Parser) : Prop
  | line (idle : p.waitingForPayload = false) (sizes : sizesOk (p.buf ++ rest) = true)
  | payload (waiting : p.waitingForPayload = true) (fits : p.pendingPayloadLen + 2 < sizeLimit)
      (sizes : sizesOk ((p.buf ++ rest).drop (p.pendingPayloadLen + 2)) = true)

variable {rest : List UInt8} {p : Parser}

theorem Sound.not_wraps (h : Sound rest p) : ¬p.Wraps := by
  rintro ⟨hwait, hwrap⟩
  cases h with
  | line idle _ =>
    rw [hwait] at idle
    cases idle
  | payload _ fits _ => exact absurd hwrap (Nat.not_le_of_lt fits)

theorem Sound.feed {data : List UInt8} (h : Sound (data ++ rest) p) : Sound rest (p.feed data) := by
  cases h with
  | line idle sizes => exact .line idle (by rwa [Parser.feed, List.append_assoc])
  | payload waiting fits sizes => exact .payload waiting fits (by rwa [Parser.feed, List.append_assoc])

theorem sound_takePayload (hwait : p.waitingForPayload = true) (hfits : p.pendingPayloadLen + 2 < sizeLimit)
    (hsizes : sizesOk ((p.buf ++ rest).drop (p.pendingPayloadLen + 2)) = true) :
    ∃ r q, p.takePayload = .ok (r, q) ∧ Sound rest q := by
  by_cases hshort : p.buf.length < p.pendingPayloadLen + 2
  · exact ⟨_, _, by rw [takePayload_of_fits hfits, if_pos hshort], .payload hwait hfits hsizes⟩
  · refine ⟨_, _, by rw [takePayload_of_fits hfits, if_neg hshort], .line rfl ?_⟩
    rwa [List.drop_append_of_le_length (Nat.le_of_not_lt hshort)] at hsizes

theorem sound_next (h : Sound rest p) : ∃ r q, p.next = .ok (r, q) ∧ Sound rest q := by
  induction hsize : p.buf.length using Nat.strong_induction_on generalizing p with
  | _ size ih =>
    cases h with
    | payload waiting fits sizes =>
      rw [next_waiting waiting]
      exact sound_takePayload waiting fits sizes
    | line idle sizes =>
      cases hline : findCRLF p.buf with
      | none => exact ⟨none, p, next_of_no_line idle hline, .line idle sizes⟩
      | some i =>
        have hbound := findCRLF_bound hline
        have hdrop : ∀ n, (p.buf ++ rest).drop (i + 2 + n) = ((p.dropLine i).buf ++ rest).drop n := fun n => by
          rw [← List.drop_drop, List.drop_append_of_le_length hbound]
          rfl
        rw [sizesOk_of_line (findCRLF_append hline rest), List.take_append_of_le_length (by omega), hdrop 0,
          List.drop_zero] at sizes
        rw [next_of_line idle hline]
        cases hkind : lineKind (p.buf.take i) with
        | void =>
          rw [hkind] at sizes
          exact ⟨_, _, rfl, .line idle sizes⟩
        | frame f =>
          rw [hkind] at sizes
          exact ⟨_, _, rfl, .line idle sizes⟩
        | unknown =>
          rw [hkind] at sizes
          exact ih _ (hsize ▸ length_dropLine_lt hline) (.line idle sizes) rfl
        | header msg len =>
          rw [hkind] at sizes
          dsimp only at sizes ⊢
          cases hlen : stoul len with
          | error e =>
            rw [hlen] at sizes
            cases sizes
          | ok n =>
            rw [hlen] at sizes
            dsimp only at sizes
            rw [hdrop, Bool.and_eq_true, decide_eq_true_eq] at sizes
            exact sound_takePayload (p := (p.dropLine i).await msg n) rfl sizes.1 sizes.2

theorem calls_cons (p : Parser) (c : Call) (cs : List Call) : p.calls (c :: cs) = (p.call c).bind fun q => q.calls cs := by
  rw [calls, List.foldlM_cons]
  rfl

theorem sound_calls {cs : List Call} (h : Sound (fed cs ++ rest) p) : ∃ q, p.calls cs = .ok q ∧ Sound rest q := by
  induction cs generalizing p with
  | nil => exact ⟨p, rfl, h⟩
  | cons c cs ih =>
    rw [calls_cons]
    cases c with
    | feed data =>
      have hfed : fed (.feed data :: cs) ++ rest = data ++ (fed cs ++ rest) := by simp [fed]
      rw [hfed] at h
      exact ih h.feed
    | next =>
      have hp : Sound (fed cs ++ rest) p := h
      obtain ⟨r, q, hnext, hsound⟩ := sound_next hp
      rw [call, hnext]
      exact ih hsound

theorem sound_drain (h : Sound rest p) : ∃ fs q, p.drain = .ok (fs, q) ∧ Sound rest q := by
  induction hsize : p.pending using Nat.strong_induction_on generalizing p with
  | _ size ih =>
    obtain ⟨r, q, hnext, hsound⟩ := sound_next h
    cases r with
    | none => exact ⟨[], q, drain_of_none hnext, hsound⟩
    | some f =>
      obtain ⟨fs, q', hdrain, hsound⟩ := ih _ (hsize ▸ pending_next hnext) hsound rfl
      exact ⟨f :: fs, q', by rw [drain_of_some hnext, hdrain]; rfl, hsound⟩

theorem readLoop_of_sound {chunks : List (List UInt8)} (h : Sound chunks.flatten p) (done : List Frame) :
    ∃ r, chunks.foldlM (fun r chunk => ((r.2.feed chunk).drain).map fun d => (r.1 ++ d.1, d.2)) (done, p) =
      Except.ok r := by
  induction chunks generalizing p done with
  | nil => exact ⟨_, rfl⟩
  | cons chunk chunks ih =>
    rw [List.flatten_cons] at h
    obtain ⟨fs, q, hdrain, hsound⟩ := sound_drain h.feed
    rw [List.foldlM_cons, hdrain]
    exact ih hsound (done ++ fs)

theorem calls_replicate_succ (p : Parser) (n : Nat) :
    p.calls (List.replicate (n + 1) .next) = p.next.bind fun r => r.2.calls (List.replicate n .next) := by
  rw [List.replicate_succ, calls_cons, call]
  cases p.next <;> rfl

variable {q : Parser} {r : Option Frame}

theorem wraps_of_takePayload (hp : p.Wraps) (h : p.takePayload = .ok (r, q)) :
    q.Wraps := by
  unfold takePayload at h
  dsimp only at h
  split at h
  · cases h
    exact hp
  · rw [if_pos hp.2] at h
    cases h

/-- Enough calls end in an error, unless the size wraps around. -/
def Fails (p : Parser) : Prop := ∃ n, ∀ q, p.calls (List.replicate n .next) = .ok q → q.Wraps

theorem fails_of_next (h : p.next = .ok (r, q)) (hq : q.Fails) : p.Fails := by
  obtain ⟨n, hn⟩ := hq
  refine ⟨n + 1, fun q' hq' => hn q' ?_⟩
  rwa [calls_replicate_succ, h] at hq'

theorem fails_of_next_eq (h : p.next = q.next) (hidle : q.waitingForPayload = false) (hq : q.Fails) :
    p.Fails := by
  obtain ⟨n, hn⟩ := hq
  cases n with
  | zero =>
    have hwait := (hn q rfl).1
    rw [hidle] at hwait
    cases hwait
  | succ n =>
    refine ⟨n + 1, fun q' hq' => hn q' ?_⟩
    rwa [calls_replicate_succ, h, ← calls_replicate_succ] at hq'

theorem fails_of_call (h : ∀ r q, p.next = .ok (r, q) → q.Wraps) : p.Fails := by
  refine ⟨1, fun q hq => ?_⟩
  rw [calls_replicate_succ] at hq
  obtain ⟨r, hnext, hr⟩ := bind_eq_ok.mp hq
  cases hr
  exact h r.1 r.2 hnext

theorem fails_of_payload {msg : Frame} {n : Nat} {r : Parser} (hnext : p.next = (r.await msg n).takePayload)
    (hfits : n + 2 < sizeLimit) (h : sizesOk (r.buf.drop (n + 2)) = false)
    (hrest : ∀ q : Parser, q.waitingForPayload = false → q.buf = r.buf.drop (n + 2) → q.Fails) : p.Fails := by
  have htake := takePayload_of_fits (p := r.await msg n) hfits
  by_cases hshort : r.buf.length < n + 2
  · -- nothing would be left to be wrong
    rw [List.drop_eq_nil_of_le (Nat.le_of_lt hshort), sizesOk_of_no_line rfl] at h
    cases h
  · rw [if_neg (by exact hshort)] at htake
    exact fails_of_next (hnext.trans htake) (hrest _ rfl rfl)

theorem fails_of_not_sizesOk (hidle : p.waitingForPayload = false) (h : sizesOk p.buf = false) : p.Fails := by
  induction hsize : p.buf.length using Nat.strong_induction_on generalizing p with
  | _ size ih =>
    cases hline : findCRLF p.buf with
    | none =>
      rw [sizesOk_of_no_line hline] at h
      cases h
    | some i =>
      have hshorter : (p.dropLine i).buf.length < size := hsize ▸ length_dropLine_lt hline
      have hnext := next_of_line hidle hline
      rw [sizesOk_of_line hline] at h
      cases hkind : lineKind (p.buf.take i) with
      | void =>
        rw [hkind] at h hnext
        exact fails_of_next hnext (ih _ hshorter (p := p.dropLine i) hidle h rfl)
      | frame f =>
        rw [hkind] at h hnext
        exact fails_of_next hnext (ih _ hshorter (p := p.dropLine i) hidle h rfl)
      | unknown =>
        rw [hkind] at h hnext
        exact fails_of_next_eq hnext hidle (ih _ hshorter (p := p.dropLine i) hidle h rfl)
      | header msg len =>
        rw [hkind] at h hnext
        dsimp only at h hnext
        cases hlen : stoul len with
        | error e =>
          rw [hlen] at hnext
          refine fails_of_call fun r q hok => ?_
          rw [hnext] at hok
          cases hok
        | ok n =>
          rw [hlen] at h hnext
          by_cases hfits : n + 2 < sizeLimit
          · dsimp only at h
            rw [decide_eq_true hfits, Bool.true_and, ← List.drop_drop] at h
            refine fails_of_payload hnext hfits h fun q hq hbuf => ih _ ?_ hq (hbuf ▸ h) rfl
            rw [hbuf, List.length_drop]
            exact Nat.lt_of_le_of_lt (Nat.sub_le _ _) hshorter
          · refine fails_of_call fun r q hok => ?_
            rw [hnext] at hok
            exact wraps_of_takePayload ⟨rfl, Nat.le_of_not_lt hfits⟩ hok

end Parser

/-- However some bytes are fed and whenever `next` is called, no call throws and no length wraps, and no cut into chunks ends the reader, exactly if the sizes that the bytes announce are good. -/
theorem parser_robust_iff (s : List UInt8) :
    ((∀ cs, fed cs = s → ∀ before, before <+: cs → ∃ q, ({} : Parser).calls before = .ok q ∧ ¬q.Wraps) ∧
      ∀ chunks, chunks.flatten = s → ∃ r, ({} : Parser).readLoop chunks = .ok r) ↔ sizesOk s = true := by
  constructor
  · rintro ⟨h, -⟩
    by_contra hbad
    obtain ⟨n, hn⟩ := Parser.fails_of_not_sizesOk (p := ({} : Parser).feed s) rfl (by simpa [Parser.feed] using hbad)
    have hfed : fed (.feed s :: List.replicate n .next) = s := by simp [fed]
    obtain ⟨q, hcalls, hwraps⟩ := h _ hfed _ (List.prefix_refl _)
    exact hwraps (hn q hcalls)
  · intro h
    have hstart : Parser.Sound s {} := .line rfl h
    constructor
    · rintro cs rfl before ⟨after, rfl⟩
      have hsplit : fed (before ++ after) = fed before ++ fed after := by simp [fed]
      rw [hsplit] at hstart
      obtain ⟨q, hcalls, hsound⟩ := Parser.sound_calls hstart
      exact ⟨q, hcalls, hsound.not_wraps⟩
    · rintro chunks rfl
      exact Parser.readLoop_of_sound hstart []

/-- A size that is no number, one that is too large, and one whose sum with the line end wraps: each ends the reader. -/
theorem parser_throws :
    ({} : Parser).calls [.feed (ascii "MSG a 1 x" ++ crlf), .next] = .error .invalidArgument ∧
      ({} : Parser).calls [.feed (ascii "MSG a 1 18446744073709551616" ++ crlf), .next] = .error .outOfRange ∧
      ({} : Parser).calls [.feed (ascii "MSG a 1 -2" ++ crlf), .next] = .error .lengthError ∧
      ({} : Parser).readLoop [ascii "MSG a 1 x" ++ crlf] = .error .invalidArgument := by
  have hcalls : ∀ data, ({} : Parser).calls [.feed data, .next] = (({} : Parser).feed data).next.map Prod.snd := fun data => by
    rw [Parser.calls_cons]
    change (({} : Parser).feed data).calls (List.replicate 1 .next) = _
    rw [Parser.calls_replicate_succ]
    cases (({} : Parser).feed data).next <;> rfl
  have hnumber : (({} : Parser).feed (ascii "MSG a 1 x" ++ crlf)).next = .error .invalidArgument := by
    rw [Parser.next_of_line (i := 9) rfl (by decide)]
    rfl
  refine ⟨?_, ?_, ?_, ?_⟩
  · rw [hcalls, hnumber]
    rfl
  · rw [hcalls, Parser.next_of_line (i := 28) rfl (by decide)]
    rfl
  · rw [hcalls, Parser.next_of_line (i := 10) rfl (by decide)]
    rfl
  · rw [Parser.readLoop, List.foldlM_cons, Parser.drain_of_error hnumber]
    rfl

end Waypoint.Core.Nats
