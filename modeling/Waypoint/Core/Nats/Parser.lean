import Mathlib.Data.List.Infix
import Mathlib.Data.List.TakeWhile
import Mathlib.Data.UInt
import Waypoint.Base.Except

/-!
# The NATS stream parser

`nats/Frame.cpp`: core's client feeds what the server sends, in chunks of whatever size, to the parser and takes frames out until there is none.
-/

namespace Waypoint.Core.Nats

open Base

inductive FrameKind
  | info
  | msg
  | ping
  | pong
  | ok
  | err

structure Frame where
  kind : FrameKind := .info
  subject : List UInt8 := []
  sid : List UInt8 := []
  reply : List UInt8 := []
  /-- the body of a message, the text of an `INFO` or `-ERR` -/
  payload : List UInt8 := []

/-! ### Bytes -/

def ascii (s : String) : List UInt8 := s.toList.map fun c => UInt8.ofNat c.toNat

def crlf : List UInt8 := [13, 10]

def startsWith (s start : List UInt8) : Bool := start.isPrefixOf s

def findCRLF : List UInt8 → Option Nat
  | a :: b :: rest => if a = 13 ∧ b = 10 then some 0 else (findCRLF (b :: rest)).map (· + 1)
  | _ => none

def isSpace (b : UInt8) : Bool := b = 32 || (9 ≤ b && b ≤ 13)

def splitSpace (s : List UInt8) : List (List UInt8) := (s.splitOnP isSpace).filter fun tok => !tok.isEmpty

def isDigit (b : UInt8) : Bool := 48 ≤ b && b ≤ 57

def digitsValue (digits : List UInt8) : Nat := digits.foldl (fun n d => 10 * n + (d.toNat - 48)) 0

def sizeLimit : Nat := 2 ^ 64

inductive Thrown
  | invalidArgument
  | outOfRange
  | lengthError

/-- `std::stoul`: an optional sign, then digits up to the first other character. -/
def stoul (tok : List UInt8) : Except Thrown Nat :=
  let negative := tok.head? = some 45
  let unsigned := if tok.head? = some 43 ∨ tok.head? = some 45 then tok.tail else tok
  let digits := unsigned.takeWhile isDigit
  if digits.isEmpty then .error .invalidArgument
  else if sizeLimit ≤ digitsValue digits then .error .outOfRange
  else .ok (if negative then (sizeLimit - digitsValue digits) % sizeLimit else digitsValue digits)

/-! ### The parser -/

structure Parser where
  buf : List UInt8 := []
  pendingPayloadLen : Nat := 0
  pendingMsg : Frame := {}
  waitingForPayload : Bool := false

namespace Parser

def feed (p : Parser) (data : List UInt8) : Parser := { p with buf := p.buf ++ data }

/-- The payload and the line end after it, whatever that is. -/
def takePayload (p : Parser) : Except Thrown (Option Frame × Parser) :=
  let total := (p.pendingPayloadLen + 2) % sizeLimit
  if p.buf.length < total then .ok (none, p)
  -- the sum has wrapped, and `std::string::assign` refuses that many bytes
  else if sizeLimit ≤ p.pendingPayloadLen + 2 then .error .lengthError
  else
    .ok (some { p.pendingMsg with payload := p.buf.take p.pendingPayloadLen },
      { p with buf := p.buf.drop total, waitingForPayload := false, pendingMsg := {} })

variable {p q : Parser} {f : Frame}

theorem takePayload_of_fits (h : p.pendingPayloadLen + 2 < sizeLimit) :
    p.takePayload = .ok (if p.buf.length < p.pendingPayloadLen + 2 then (none, p)
      else (some { p.pendingMsg with payload := p.buf.take p.pendingPayloadLen },
        { p with buf := p.buf.drop (p.pendingPayloadLen + 2), waitingForPayload := false, pendingMsg := {} })) := by
  unfold takePayload
  dsimp only
  rw [Nat.mod_eq_of_lt h]
  split
  · rfl
  · rw [if_neg (by omega)]

/-- `MSG <subject> <sid> [reply] <size>`: the message without its payload, and the size as it stands. -/
def msgHeader : List (List UInt8) → Option (Frame × List UInt8)
  | [subject, sid, size] => some ({ kind := .msg, subject, sid }, size)
  | [subject, sid, reply, size] => some ({ kind := .msg, subject, sid, reply }, size)
  | _ => none

/-- What `next` does with a line that has left the buffer; `none` for a line it does not know. -/
def onLine (p : Parser) (line : List UInt8) : Except Thrown (Option (Option Frame × Parser)) :=
  if line.isEmpty then .ok (some (none, p))
  else if startsWith line (ascii "INFO ") then .ok (some (some { kind := .info, payload := line.drop 5 }, p))
  else if line = ascii "PING" then .ok (some (some { kind := .ping }, p))
  else if line = ascii "PONG" then .ok (some (some { kind := .pong }, p))
  else if line = ascii "+OK" then .ok (some (some { kind := .ok }, p))
  else if startsWith line (ascii "-ERR ") then .ok (some (some { kind := .err, payload := line.drop 5 }, p))
  else if startsWith line (ascii "MSG ") then
    match msgHeader (splitSpace (line.drop 4)) with
    | none => .ok (some (none, p))
    | some (header, size) => do
        let len ← stoul size
        -- the payload may already be there
        let result ← { p with pendingMsg := header, pendingPayloadLen := len, waitingForPayload := true }.takePayload
        return some result
  else .ok none

theorem findCRLF_bound {s : List UInt8} {i : Nat} (h : findCRLF s = some i) : i + 2 ≤ s.length := by
  induction s using findCRLF.induct generalizing i with
  | case1 a b rest hend =>
    rw [findCRLF, if_pos hend] at h
    cases h
    simp
  | case2 a b rest hgo ih =>
    rw [findCRLF, if_neg hgo] at h
    obtain ⟨j, hj, rfl⟩ := Option.map_eq_some_iff.mp h
    have hbound := ih hj
    rw [List.length_cons]
    omega
  | case3 s hshort =>
    rw [findCRLF] at h
    · cases h
    · exact hshort

/-- `Parser::next`. A line that is not known is dropped and the next one tried. -/
def next (p : Parser) : Except Thrown (Option Frame × Parser) :=
  if p.waitingForPayload then p.takePayload
  else
    match _hline : findCRLF p.buf with
    | none => .ok (none, p)
    | some i =>
      match { p with buf := p.buf.drop (i + 2) }.onLine (p.buf.take i) with
      | .error e => .error e
      | .ok (some result) => .ok result
      | .ok none => next { p with buf := p.buf.drop (i + 2) }
termination_by p.buf.length
decreasing_by
  have hbound := findCRLF_bound _hline
  rw [List.length_drop]
  omega

def pending (p : Parser) : Nat := 2 * p.buf.length + if p.waitingForPayload then 1 else 0

theorem pending_takePayload (hp : p.waitingForPayload = true)
    (h : p.takePayload = .ok (some f, q)) : q.pending < p.pending := by
  unfold takePayload at h
  dsimp only at h
  split at h
  · cases h
  split at h
  · cases h
  · cases h
    simp only [pending, hp, List.length_drop, if_true, Bool.false_eq_true, if_false]
    omega

theorem pending_onLine {line : List UInt8} (hp : p.waitingForPayload = false)
    (h : p.onLine line = .ok (some (some f, q))) : q.pending ≤ p.pending + 1 := by
  unfold onLine at h
  split at h
  · cases h
  iterate 5
    split at h
    · cases h
      omega
  split at h
  · split at h
    · cases h
    obtain ⟨len, -, h⟩ := bind_eq_ok.mp h
    obtain ⟨result, htake, h⟩ := bind_eq_ok.mp h
    cases h
    have htake := pending_takePayload rfl htake
    have hwait : ∀ header, ({ p with pendingMsg := header, pendingPayloadLen := len, waitingForPayload := true } :
        Parser).pending = p.pending + 1 := fun _ => by simp [pending, hp]
    rw [hwait] at htake
    omega
  · cases h

theorem pending_next (h : p.next = .ok (some f, q)) : q.pending < p.pending := by
  fun_induction next p with
  | case1 p hp => exact pending_takePayload hp h
  | case2 p hp hline => cases h
  | case3 p hp i hline e hthrow => cases h
  | case4 p hp i hline result hresult =>
    cases h
    have hidle : p.waitingForPayload = false := Bool.eq_false_iff.mpr hp
    have honly := pending_onLine (p := { p with buf := p.buf.drop (i + 2) }) hidle hresult
    have hbound := findCRLF_bound hline
    simp only [pending, List.length_drop, hidle, Bool.false_eq_true, if_false] at honly ⊢
    omega
  | case5 p hp i hline hskip ih =>
    have hrest := ih h
    simp only [pending, List.length_drop] at hrest ⊢
    omega

def drain (p : Parser) : Except Thrown (List Frame × Parser) :=
  match hnext : p.next with
  | .error e => .error e
  | .ok (none, q) => .ok ([], q)
  | .ok (some f, q) =>
    have : q.pending < p.pending := pending_next hnext
    (q.drain).map fun r => (f :: r.1, r.2)
termination_by p.pending

theorem drain_of_error {e : Thrown} (h : p.next = .error e) : p.drain = .error e := by
  rw [drain]
  split
  · rename_i heq
    cases h.symm.trans heq
    rfl
  · rename_i heq
    cases h.symm.trans heq
  · rename_i heq
    cases h.symm.trans heq

theorem drain_of_none (h : p.next = .ok (none, q)) : p.drain = .ok ([], q) := by
  rw [drain]
  split
  · rename_i heq
    cases h.symm.trans heq
  · rename_i heq
    cases h.symm.trans heq
    rfl
  · rename_i heq
    cases h.symm.trans heq

theorem drain_of_some (h : p.next = .ok (some f, q)) :
    p.drain = q.drain.map fun r => (f :: r.1, r.2) := by
  rw [drain]
  split
  · rename_i heq
    cases h.symm.trans heq
  · rename_i heq
    cases h.symm.trans heq
  · rename_i heq
    cases h.symm.trans heq
    rfl

/-- `Connection::readLoop` on what the reads return, with the frames it passes on. -/
def readLoop (p : Parser) (chunks : List (List UInt8)) : Except Thrown (List Frame × Parser) :=
  chunks.foldlM (fun r chunk => ((r.2.feed chunk).drain).map fun d => (r.1 ++ d.1, d.2)) ([], p)

end Parser

/-! ### What a server sends -/

structure Text where
  bytes : List UInt8
  crlfFree : ¬crlf <:+: bytes

structure Token where
  bytes : List UInt8
  nonempty : bytes ≠ []
  spaceFree : ∀ b ∈ bytes, isSpace b = false

/-- Any bytes; a `std::string` holds them together with their line end. -/
structure Body where
  bytes : List UInt8
  fits : bytes.length + 2 < sizeLimit

inductive ServerFrame
  | info (text : Text)
  | ping
  | pong
  | ok
  | err (text : Text)
  | msg (subject sid : Token) (reply : Option Token) (payload : Body)

def decimal (n : Nat) : List UInt8 := (Nat.toDigits 10 n).map fun c => UInt8.ofNat c.toNat

def msgFields (subject sid : Token) (reply : Option Token) (payload : Body) : List (List UInt8) :=
  subject.bytes :: sid.bytes :: ((reply.map (·.bytes)).toList ++ [decimal payload.bytes.length])

namespace ServerFrame

def line : ServerFrame → List UInt8
  | info text => ascii "INFO " ++ text.bytes
  | ping => ascii "PING"
  | pong => ascii "PONG"
  | ok => ascii "+OK"
  | err text => ascii "-ERR " ++ text.bytes
  | msg subject sid reply payload => ascii "MSG " ++ [32].intercalate (msgFields subject sid reply payload)

def body : ServerFrame → List UInt8
  | msg _ _ _ payload => payload.bytes ++ crlf
  | _ => []

def serialize (f : ServerFrame) : List UInt8 := f.line ++ crlf ++ f.body

def frame : ServerFrame → Frame
  | info text => { kind := .info, payload := text.bytes }
  | ping => { kind := .ping }
  | pong => { kind := .pong }
  | ok => { kind := .ok }
  | err text => { kind := .err, payload := text.bytes }
  | msg subject sid reply payload =>
    { kind := .msg, subject := subject.bytes, sid := sid.bytes, reply := (reply.map (·.bytes)).getD [],
      payload := payload.bytes }

def stream (fs : List ServerFrame) : List UInt8 := fs.flatMap serialize

end ServerFrame

/-! ### Line ends -/

theorem findCRLF_cons_of_ne {a : UInt8} (ha : a ≠ 13) (s : List UInt8) : findCRLF (a :: s) = (findCRLF s).map (· + 1) := by
  cases s with
  | nil => rfl
  | cons b rest => rw [findCRLF, if_neg fun hend => ha hend.1]

variable {s : List UInt8} {n : Nat}

theorem findCRLF_eq_none_iff : findCRLF s = none ↔ ¬crlf <:+: s := by
  induction s using findCRLF.induct with
  | case1 a b rest hend =>
    obtain ⟨rfl, rfl⟩ := hend
    rw [findCRLF, if_pos ⟨rfl, rfl⟩]
    simp only [reduceCtorEq, false_iff, not_not]
    exact ⟨[], rest, rfl⟩
  | case2 a b rest hgo ih =>
    rw [findCRLF, if_neg hgo, Option.map_eq_none_iff, ih]
    constructor
    · intro hlater hinfix
      rcases List.infix_cons_iff.mp hinfix with hhere | hthere
      · obtain ⟨rfl, hb⟩ := List.cons_prefix_cons.mp hhere
        exact hgo ⟨rfl, (List.cons_prefix_cons.mp hb).1.symm⟩
      · exact hlater hthere
    · intro h hthere
      exact h (List.infix_cons_iff.mpr (.inr hthere))
  | case3 s hshort =>
    rw [findCRLF]
    · refine ⟨fun _ hinfix => ?_, fun _ => rfl⟩
      obtain ⟨before, after, rfl⟩ := hinfix
      cases before with
      | nil => exact hshort 13 10 after rfl
      | cons a before =>
        cases before with
        | nil => exact hshort a 13 (10 :: after) rfl
        | cons b before => exact hshort a b _ rfl
    · exact hshort

variable {line : List UInt8} {b : UInt8} {fields : List (List UInt8)}

theorem findCRLF_line (h : findCRLF line = none) (rest : List UInt8) :
    findCRLF (line ++ crlf ++ rest) = some line.length := by
  induction line using findCRLF.induct with
  | case1 a b tail hend =>
    rw [findCRLF, if_pos hend] at h
    cases h
  | case2 a b tail hgo ih =>
    rw [findCRLF, if_neg hgo, Option.map_eq_none_iff] at h
    change findCRLF (a :: b :: (tail ++ crlf ++ rest)) = _
    rw [findCRLF, if_neg hgo]
    have hrest : findCRLF (b :: (tail ++ crlf ++ rest)) = some (b :: tail).length := ih h
    rw [hrest]
    rfl
  | case3 line hshort =>
    match line, hshort with
    | [], _ => rfl
    | [a], _ =>
      change findCRLF (a :: 13 :: (10 :: rest)) = some 1
      rw [findCRLF, if_neg (by simp)]
      rfl
    | a :: b :: tail, hshort => exact (hshort a b tail rfl).elim

theorem findCRLF_append {i : Nat} (h : findCRLF s = some i) (rest : List UInt8) :
    findCRLF (s ++ rest) = some i := by
  induction s using findCRLF.induct generalizing i with
  | case1 a b tail hend =>
    rw [findCRLF, if_pos hend] at h
    change findCRLF (a :: b :: (tail ++ rest)) = some i
    rw [findCRLF, if_pos hend, h]
  | case2 a b tail hgo ih =>
    rw [findCRLF, if_neg hgo] at h
    obtain ⟨j, hj, rfl⟩ := Option.map_eq_some_iff.mp h
    change findCRLF (a :: b :: (tail ++ rest)) = _
    rw [findCRLF, if_neg hgo]
    have hmore : findCRLF (b :: (tail ++ rest)) = some j := ih hj
    rw [hmore]
    rfl
  | case3 s hshort =>
    rw [findCRLF] at h
    · cases h
    · exact hshort

theorem findCRLF_front {buf rest tail : List UInt8} (hline : findCRLF line = none)
    (hbuf : buf ++ rest = line ++ crlf ++ tail) :
    (findCRLF buf = none ∧ buf.length < line.length + 2) ∨
      (findCRLF buf = some line.length ∧ buf.take line.length = line ∧ buf.drop (line.length + 2) ++ rest = tail) := by
  cases hfound : findCRLF buf with
  | none =>
    refine .inl ⟨rfl, ?_⟩
    by_contra hlong
    have hwhole : line ++ crlf <+: buf := by
      have hfront : line ++ crlf <+: buf ++ rest := ⟨tail, hbuf.symm⟩
      refine List.prefix_of_prefix_length_le hfront (List.prefix_append buf rest) ?_
      rw [List.length_append]
      exact Nat.le_of_not_lt hlong
    obtain ⟨after, rfl⟩ := hwhole
    rw [findCRLF_line hline] at hfound
    cases hfound
  | some i =>
    have hi := findCRLF_append hfound rest
    rw [hbuf, findCRLF_line hline] at hi
    cases hi
    have hbound := Parser.findCRLF_bound hfound
    refine .inr ⟨rfl, ?_, ?_⟩
    · have htake := congrArg (List.take line.length) hbuf
      rwa [List.take_append_of_le_length (by omega), List.append_assoc, List.take_left] at htake
    have hdrop := congrArg (List.drop (line.length + 2)) hbuf
    have hlength : line.length + 2 = (line ++ crlf).length := by rw [List.length_append]; rfl
    rw [hlength] at hbound hdrop ⊢
    rwa [List.drop_append_of_le_length hbound, List.drop_left] at hdrop

/-! ### Message headers -/

theorem toNat_of_mem_toDigits {c : Char} (h : c ∈ Nat.toDigits 10 n) :
    (UInt8.ofNat c.toNat).toNat = c.toNat ∧ 48 ≤ c.toNat ∧ c.toNat ≤ 57 := by
  have hdigit := Nat.isDigit_of_mem_toDigits (by decide) (by decide) h
  simp only [Char.isDigit, Bool.and_eq_true, decide_eq_true_eq, ge_iff_le, UInt32.le_iff_toNat_le] at hdigit
  obtain ⟨hlow, hhigh⟩ : 48 ≤ c.toNat ∧ c.toNat ≤ 57 := hdigit
  have hbyte : c.toNat < UInt8.size := Nat.lt_of_le_of_lt hhigh (by decide)
  exact ⟨UInt8.toNat_ofNat_of_lt' hbyte, hlow, hhigh⟩

theorem digit_of_mem_decimal (h : b ∈ decimal n) : 48 ≤ b.toNat ∧ b.toNat ≤ 57 := by
  obtain ⟨c, hc, rfl⟩ := List.mem_map.mp h
  obtain ⟨hbyte, hdigit⟩ := toNat_of_mem_toDigits hc
  rwa [hbyte]

theorem isDigit_of_mem_decimal (h : b ∈ decimal n) : isDigit b = true := by
  obtain ⟨hlow, hhigh⟩ := digit_of_mem_decimal h
  simp only [isDigit, Bool.and_eq_true, decide_eq_true_eq, UInt8.le_iff_toNat_le]
  exact ⟨hlow, hhigh⟩

theorem decimal_ne_nil (n : Nat) : decimal n ≠ [] := by simp [decimal]

theorem digitsValue_decimal (n : Nat) : digitsValue (decimal n) = n := by
  have hbytes : digitsValue (decimal n) = Nat.ofDigitChars 10 (Nat.toDigits 10 n) 0 := by
    rw [digitsValue, decimal, List.foldl_map, Nat.ofDigitChars]
    refine List.foldl_ext _ _ _ fun m c hc => ?_
    rw [(toNat_of_mem_toDigits hc).1]
    rfl
  rw [hbytes, Nat.ofDigitChars_ten_toDigits]

theorem stoul_decimal (h : n < sizeLimit) : stoul (decimal n) = .ok n := by
  have hhead : ∀ b, (decimal n).head? = some b → isDigit b = true := fun b hb =>
    isDigit_of_mem_decimal (List.mem_of_mem_head? hb)
  have hplus : (decimal n).head? ≠ some 43 := fun hb => absurd (hhead 43 hb) (by decide)
  have hminus : (decimal n).head? ≠ some 45 := fun hb => absurd (hhead 45 hb) (by decide)
  have hdigits : (decimal n).takeWhile isDigit = decimal n :=
    List.takeWhile_eq_self_iff.mpr fun b hb => isDigit_of_mem_decimal hb
  have hnonempty : (decimal n).isEmpty = false := List.isEmpty_eq_false_iff.mpr (decimal_ne_nil n)
  simp only [stoul, hplus, hminus, or_self, if_false, hdigits, hnonempty, Bool.false_eq_true, digitsValue_decimal,
    Nat.not_le_of_lt h]

def Field (tok : List UInt8) : Prop := tok ≠ [] ∧ ∀ b ∈ tok, isSpace b = false

theorem splitSpace_intercalate (h : ∀ tok ∈ fields, Field tok) :
    splitSpace ([32].intercalate fields) = fields := by
  induction fields with
  | nil => rfl
  | cons tok fields ih =>
    rw [List.forall_mem_cons] at h
    obtain ⟨⟨hne, hfree⟩, hrest⟩ := h
    have hkeep : ∀ rest, (tok :: rest).filter (fun tok => !tok.isEmpty) = tok :: rest.filter fun tok => !tok.isEmpty :=
      fun rest => List.filter_cons_of_pos (by rw [List.isEmpty_eq_false_iff.mpr hne]; rfl)
    cases fields with
    | nil =>
      rw [List.intercalate_singleton, splitSpace, List.splitOnP_eq_singleton hfree, hkeep, List.filter_nil]
    | cons next fields =>
      have hcons : [32].intercalate (tok :: next :: fields) = tok ++ 32 :: [32].intercalate (next :: fields) := by
        rw [List.intercalate_cons_cons, List.append_assoc, List.singleton_append]
      rw [hcons, splitSpace, List.splitOnP_append_cons_of_forall_mem hfree 32 rfl, hkeep]
      exact congrArg (tok :: ·) (ih hrest)

theorem Token.field (tok : Token) : Field tok.bytes := ⟨tok.nonempty, tok.spaceFree⟩

theorem field_decimal (n : Nat) : Field (decimal n) := by
  refine ⟨decimal_ne_nil n, fun b hb => ?_⟩
  obtain ⟨hlow, -⟩ := digit_of_mem_decimal hb
  rw [Bool.eq_false_iff]
  intro hspace
  simp only [isSpace, Bool.or_eq_true, Bool.and_eq_true, decide_eq_true_eq, UInt8.le_iff_toNat_le] at hspace
  rcases hspace with rfl | ⟨-, hhigh⟩
  · exact absurd hlow (by decide)
  · change b.toNat ≤ 13 at hhigh
    omega

theorem field_of_mem_msgFields {subject sid : Token} {reply : Option Token} {payload : Body} {tok : List UInt8}
    (h : tok ∈ msgFields subject sid reply payload) : Field tok := by
  simp only [msgFields, List.mem_cons, List.mem_append, Option.mem_toList, Option.map_eq_some_iff,
    List.not_mem_nil, or_false] at h
  rcases h with rfl | rfl | ⟨r, -, rfl⟩ | rfl
  · exact subject.field
  · exact sid.field
  · exact r.field
  · exact field_decimal _

/-! ### Lines of a server -/

theorem findCRLF_of_forall_ne (h : ∀ b ∈ s, b ≠ 13) : findCRLF s = none := by
  induction s with
  | nil => rfl
  | cons a s ih =>
    rw [List.forall_mem_cons] at h
    rw [findCRLF_cons_of_ne h.1, ih h.2]
    rfl

theorem not_mem_intercalate (h : ∀ tok ∈ fields, Field tok) :
    ∀ b ∈ [32].intercalate fields, b ≠ 13 := by
  induction fields with
  | nil => simp
  | cons tok fields ih =>
    rw [List.forall_mem_cons] at h
    have htok : ∀ b ∈ tok, b ≠ 13 := by
      rintro b hb rfl
      exact absurd (h.1.2 13 hb) (by decide)
    cases fields with
    | nil => rwa [List.intercalate_singleton]
    | cons next fields =>
      rw [List.intercalate_cons_cons]
      intro b hb
      rcases List.mem_append.mp hb with hb | hb
      · rcases List.mem_append.mp hb with hb | hb
        · exact htok b hb
        · rw [List.mem_singleton.mp hb]
          decide
      · exact ih h.2 b hb

theorem ServerFrame.findCRLF_line (f : ServerFrame) : findCRLF f.line = none := by
  cases f with
  | info text =>
    change findCRLF (73 :: 78 :: 70 :: 79 :: 32 :: text.bytes) = none
    iterate 5 rw [findCRLF_cons_of_ne (by decide)]
    rw [findCRLF_eq_none_iff.mpr text.crlfFree]
    rfl
  | err text =>
    change findCRLF (45 :: 69 :: 82 :: 82 :: 32 :: text.bytes) = none
    iterate 5 rw [findCRLF_cons_of_ne (by decide)]
    rw [findCRLF_eq_none_iff.mpr text.crlfFree]
    rfl
  | msg subject sid reply payload =>
    refine findCRLF_of_forall_ne fun b hb => ?_
    have hstart : ∀ b ∈ ascii "MSG ", b ≠ 13 := by decide +kernel
    rcases List.mem_append.mp hb with hb | hb
    · exact hstart b hb
    · exact not_mem_intercalate (fun tok htok => field_of_mem_msgFields htok) b hb
  | _ => decide

namespace Parser

def await (p : Parser) (header : Frame) (len : Nat) : Parser :=
  { p with pendingMsg := header, pendingPayloadLen := len, waitingForPayload := true }

def header (subject sid : Token) (reply : Option Token) : Frame :=
  { kind := .msg, subject := subject.bytes, sid := sid.bytes, reply := (reply.map (·.bytes)).getD [] }

def accept (p : Parser) : ServerFrame → Except Thrown (Option Frame × Parser)
  | .msg subject sid reply payload => (p.await (header subject sid reply) payload.bytes.length).takePayload
  | f => .ok (some f.frame, p)

theorem msgHeader_msgFields (subject sid : Token) (reply : Option Token) (payload : Body) :
    msgHeader (msgFields subject sid reply payload) = some (header subject sid reply, decimal payload.bytes.length) := by
  cases reply <;> rfl

theorem onLine_line (p : Parser) (f : ServerFrame) : p.onLine f.line = (p.accept f).map some := by
  cases f with
  | msg subject sid reply payload =>
    -- none of the lines that are looked for before a header
    have hline : ∀ fields : List UInt8, p.onLine (ascii "MSG " ++ fields) =
        match msgHeader (splitSpace fields) with
        | none => .ok (some (none, p))
        | some (header, size) => (stoul size).bind fun len => (p.await header len).takePayload.bind (.ok <| some ·) :=
      fun _ => rfl
    have hlen : payload.bytes.length < sizeLimit := by
      have := payload.fits
      omega
    rw [ServerFrame.line, hline, splitSpace_intercalate fun tok htok => field_of_mem_msgFields htok, msgHeader_msgFields]
    dsimp only
    rw [stoul_decimal hlen]
    change (p.accept (.msg subject sid reply payload)).bind _ = _
    cases p.accept (.msg subject sid reply payload) <;> rfl
  | _ => rfl

/-- The parser has seen the bytes before `rest`, and the frames that are still to come out are `fs`. -/
inductive Tracks (rest : List UInt8) : Parser → List ServerFrame → Prop
  | line {p : Parser} {fs : List ServerFrame} (idle : p.waitingForPayload = false)
      (bytes : p.buf ++ rest = ServerFrame.stream fs) : Tracks rest p fs
  | payload {p : Parser} {subject sid : Token} {reply : Option Token} {body : Body} {fs : List ServerFrame}
      (bytes : p.buf ++ rest = body.bytes ++ crlf ++ ServerFrame.stream fs) :
      Tracks rest (p.await (header subject sid reply) body.bytes.length) (.msg subject sid reply body :: fs)

variable {rest : List UInt8} {p : Parser} {fs : List ServerFrame}

theorem Tracks.feed {chunk : List UInt8} (h : Tracks (chunk ++ rest) p fs) :
    Tracks rest (p.feed chunk) fs := by
  cases h with
  | line idle bytes => exact .line idle ((List.append_assoc ..).trans bytes)
  | @payload p subject sid reply body fs bytes =>
    exact .payload (p := p.feed chunk) ((List.append_assoc ..).trans bytes)

theorem Tracks.empty (h : Tracks [] p []) : p.buf = [] ∧ p.waitingForPayload = false := by
  cases h with
  | line idle bytes => exact ⟨(List.append_eq_nil_iff.mp bytes).1, idle⟩

/-- The call returns the next frame, or needs more bytes. -/
def Yields (rest : List UInt8) (fs : List ServerFrame) (result : Option Frame × Parser) : Prop :=
  (∃ f fs', fs = f :: fs' ∧ result.1 = some f.frame ∧ Tracks rest result.2 fs') ∨
    (result.1 = none ∧ Tracks rest result.2 fs ∧ (rest = [] → fs = []))

theorem yields_takePayload {subject sid : Token} {reply : Option Token} {body : Body}
    (hbytes : p.buf ++ rest = body.bytes ++ crlf ++ ServerFrame.stream fs) :
    ∃ result, (p.await (header subject sid reply) body.bytes.length).takePayload = .ok result ∧
      Yields rest (.msg subject sid reply body :: fs) result := by
  refine ⟨_, takePayload_of_fits body.fits, ?_⟩
  have hlength : (body.bytes ++ crlf).length = body.bytes.length + 2 := by
    rw [List.length_append]
    rfl
  by_cases hshort : p.buf.length < body.bytes.length + 2
  · rw [if_pos (by exact hshort)]
    refine .inr ⟨rfl, .payload (p := p) hbytes, fun hend => ?_⟩
    rw [hend, List.append_nil] at hbytes
    rw [hbytes, List.length_append, hlength] at hshort
    omega
  · rw [if_neg (by exact hshort)]
    have htake : p.buf.take body.bytes.length = body.bytes := by
      have hfront := congrArg (List.take body.bytes.length) hbytes
      rwa [List.take_append_of_le_length (by omega), List.append_assoc, List.take_left] at hfront
    have hdrop : p.buf.drop (body.bytes.length + 2) ++ rest = ServerFrame.stream fs := by
      have hback := congrArg (List.drop (body.bytes.length + 2)) hbytes
      rwa [List.drop_append_of_le_length (by omega), ← hlength, List.drop_left, hlength] at hback
    refine .inl ⟨_, fs, rfl, ?_, .line rfl hdrop⟩
    change some { header subject sid reply with payload := p.buf.take body.bytes.length } = _
    rw [htake]
    rfl

theorem yields_accept {f : ServerFrame}
    (hidle : p.waitingForPayload = false) (hbytes : p.buf ++ rest = f.body ++ ServerFrame.stream fs) :
    ∃ result, p.accept f = .ok result ∧ Yields rest (f :: fs) result := by
  cases f with
  | msg subject sid reply payload => exact yields_takePayload hbytes
  | _ => exact ⟨_, rfl, .inl ⟨_, fs, rfl, rfl, .line hidle hbytes⟩⟩

theorem yields_next (h : Tracks rest p fs) :
    ∃ result, p.next = .ok result ∧ Yields rest fs result := by
  cases h with
  | @payload p subject sid reply body fs bytes =>
    rw [next]
    exact yields_takePayload bytes
  | line idle bytes =>
    have hnone : findCRLF p.buf = none → p.next = .ok (none, p) := by
      intro hline
      rw [next, if_neg (by simp [idle])]
      split
      · rfl
      · rename_i hsome
        rw [hline] at hsome
        cases hsome
    cases fs with
    | nil =>
      have hempty : p.buf = [] := (List.append_eq_nil_iff.mp bytes).1
      refine ⟨_, hnone (by rw [hempty]; rfl), .inr ⟨rfl, .line idle bytes, fun _ => rfl⟩⟩
    | cons f fs =>
      have hstream : p.buf ++ rest = f.line ++ crlf ++ (f.body ++ ServerFrame.stream fs) :=
        bytes.trans (List.append_assoc ..)
      rcases findCRLF_front f.findCRLF_line hstream with ⟨hline, hshort⟩ | ⟨hline, htake, hdrop⟩
      · refine ⟨_, hnone hline, .inr ⟨rfl, .line idle bytes, fun hend => ?_⟩⟩
        rw [hend, List.append_nil] at hstream
        rw [hstream] at hshort
        simp only [List.length_append, crlf, List.length_cons, List.length_nil] at hshort
        omega
      · obtain ⟨result, haccept, hyields⟩ :=
          yields_accept (p := { p with buf := p.buf.drop (f.line.length + 2) }) idle hdrop
        refine ⟨result, ?_, hyields⟩
        rw [next, if_neg (by simp [idle])]
        split
        · rename_i hno
          rw [hline] at hno
          cases hno
        rename_i i hsome
        rw [hline] at hsome
        cases hsome
        rw [htake, onLine_line, haccept]
        rfl

/-- Taking frames until there is none gives the front of what is to come, and all of it if no bytes are missing. -/
theorem drain_tracks (h : Tracks rest p fs) :
    ∃ before after q, fs = before ++ after ∧ p.drain = .ok (before.map ServerFrame.frame, q) ∧ Tracks rest q after ∧
      (rest = [] → after = []) := by
  induction fs generalizing p with
  | nil =>
    obtain ⟨⟨frame, q⟩, hnext, ⟨_, _, hfs, -⟩ | ⟨rfl, htracks, hend⟩⟩ := yields_next h
    · cases hfs
    · exact ⟨[], [], q, rfl, drain_of_none hnext, htracks, hend⟩
  | cons f fs ih =>
    obtain ⟨⟨frame, q⟩, hnext, ⟨_, _, hfs, rfl, htracks⟩ | ⟨rfl, htracks, hend⟩⟩ := yields_next h
    · cases hfs
      obtain ⟨before, after, r, rfl, hdrain, htracks, hend⟩ := ih htracks
      refine ⟨f :: before, after, r, rfl, ?_, htracks, hend⟩
      rw [drain_of_some hnext, hdrain]
      rfl
    · exact ⟨[], f :: fs, q, rfl, drain_of_none hnext, htracks, hend⟩

/-- The chunks of a stream, one after the other: what has come out and what is to come are the frames of the stream. -/
theorem readLoop_tracks (done : List Frame) {chunks : List (List UInt8)}
    (h : Tracks chunks.flatten p fs) (hp : chunks = [] → fs = []) :
    ∃ q, chunks.foldlM (fun r chunk => ((r.2.feed chunk).drain).map fun d => (r.1 ++ d.1, d.2)) (done, p) =
      Except.ok (done ++ fs.map ServerFrame.frame, q) ∧ Tracks [] q [] := by
  induction chunks generalizing p fs done with
  | nil =>
    rw [hp rfl] at h ⊢
    exact ⟨p, by simp [pure, Except.pure], h⟩
  | cons chunk chunks ih =>
    obtain ⟨before, after, q, rfl, hdrain, htracks, hend⟩ := drain_tracks h.feed
    have hlast : chunks = [] → after = [] := fun hnil => hend (by rw [hnil]; rfl)
    obtain ⟨r, hloop, hr⟩ := ih (done ++ before.map ServerFrame.frame) htracks hlast
    refine ⟨r, ?_, hr⟩
    rw [List.foldlM_cons, hdrain, List.map_append, ← List.append_assoc]
    exact hloop

end Parser

/-- However the bytes of some frames are cut into chunks, the parser returns exactly these frames, in order, and keeps nothing back. -/
theorem parser_chunk_independent (fs : List ServerFrame) (chunks : List (List UInt8))
    (h : chunks.flatten = ServerFrame.stream fs) :
    ∃ q, ({} : Parser).readLoop chunks = .ok (fs.map ServerFrame.frame, q) ∧ q.buf = [] ∧
      q.waitingForPayload = false := by
  have hstart : Parser.Tracks chunks.flatten {} fs := .line rfl h
  have hnone : chunks = [] → fs = [] := by
    rintro rfl
    cases fs with
    | nil => rfl
    | cons f fs =>
      have hlength := congrArg List.length h
      simp only [ServerFrame.stream, List.flatMap_cons, ServerFrame.serialize, List.flatten_nil, List.length_nil,
        List.length_append, crlf, List.length_cons] at hlength
      omega
  obtain ⟨q, hloop, hq⟩ := Parser.readLoop_tracks [] hstart hnone
  exact ⟨q, hloop, hq.empty⟩

def lookalike : ServerFrame :=
  .msg ⟨ascii "hello", by decide, by decide +kernel⟩ ⟨ascii "1", by decide, by decide +kernel⟩
    (some ⟨ascii "_INBOX.abc", by decide, by decide +kernel⟩) ⟨ascii "PING" ++ crlf, by decide⟩

theorem parser_chunk_independent_lookalike :
    ∃ q, ({} : Parser).readLoop
        [ascii "MSG hel", ascii "lo 1 _INBOX.abc 6" ++ [13], [10] ++ ascii "PI", ascii "NG" ++ crlf ++ crlf ++ ascii "PIN",
          ascii "G" ++ crlf] =
      .ok ([{ kind := .msg, subject := ascii "hello", sid := ascii "1", reply := ascii "_INBOX.abc",
              payload := ascii "PING" ++ crlf }, { kind := .ping }], q) ∧ q.buf = [] ∧ q.waitingForPayload = false :=
  parser_chunk_independent [lookalike, .ping] _ (by decide)

end Waypoint.Core.Nats
