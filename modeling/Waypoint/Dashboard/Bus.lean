import Waypoint.Base.Overlap
import Waypoint.Base.Run

/-!
# The browser's bus

`state/nats.ts` of the dashboard: the `Bus` keeps handlers by pattern, the patterns it has registered with the server, one WebSocket, and the credential it was opened with.
-/

namespace Waypoint.Dashboard

open Base

def matchTokens : List String → List String → Bool
  | [], sTok => sTok.isEmpty
  | p :: pTok, sTok =>
    if p = ">" then pTok.isEmpty && !sTok.isEmpty
    else
      match sTok with
      | [] => false
      | s :: sTok => if p = "*" then matchTokens pTok sTok else decide (p = s) && matchTokens pTok sTok

theorem matchTokens_nil (p : String) (pTok : List String) : matchTokens (p :: pTok) [] = false := by
  rw [matchTokens.eq_def]
  dsimp only
  split <;> simp

theorem matchTokens_cons (p s : String) (pTok sTok : List String) :
    matchTokens (p :: pTok) (s :: sTok) =
      if p = ">" then pTok.isEmpty
      else if p = "*" then matchTokens pTok sTok
      else decide (p = s) && matchTokens pTok sTok := by
  rw [matchTokens.eq_def]
  simp

def matchesSubject (pattern subject : String) : Bool :=
  decide (pattern = subject) || matchTokens (tokens pattern) (tokens subject)

structure NatsCred where
  jwt : String
  seed : String
  expiresAt : Int
  natsUrl : String

abbrev Handler := Nat

inductive Envelope
  | sub (subject : String)
  | unsub (subject : String)
  | pub (subject : String) (data : List UInt8)
  deriving DecidableEq

inductive ReadyState
  | connecting
  | open
  | closing
  | closed
  deriving DecidableEq

structure WebSocket where
  readyState : ReadyState := .connecting
  sent : List Envelope := []

structure Bus where
  ws : Option Nat := none
  /-- in the order in which the patterns were first subscribed -/
  subs : List (String × List Handler) := []
  serverSubs : List String := []
  queue : List Envelope := []
  cred : Option NatsCred := none
  sockets : List WebSocket := []
  /-- timers that will call `connect` -/
  reconnects : Nat := 0
  refreshTimer : Bool := false
  /-- a credential is being fetched, for `start` or for `refresh` -/
  starting : Bool := false
  refreshing : Bool := false
  /-- the calls of handlers, each with the pattern it was registered under -/
  calls : List (String × Handler) := []

namespace Bus

def setSocket (i : Nat) (f : WebSocket → WebSocket) (b : Bus) : Bus := { b with sockets := b.sockets.modify i f }

def sendOn (i : Nat) (envs : List Envelope) (b : Bus) : Bus :=
  b.setSocket i fun s => { s with sent := s.sent ++ envs }

variable (b : Bus)

def isOpen (i : Nat) : Bool := (b.sockets[i]?.map (·.readyState)) = some .open

def send (env : Envelope) (b : Bus) : Bus :=
  match b.ws with
  | some i => if b.isOpen i then b.sendOn i [env] else { b with queue := b.queue ++ [env] }
  | none => { b with queue := b.queue ++ [env] }

@[simp] theorem subs_send (env : Envelope) (b : Bus) : (b.send env).subs = b.subs := by
  unfold send
  split
  · split <;> rfl
  · rfl

@[simp] theorem serverSubs_send (env : Envelope) (b : Bus) : (b.send env).serverSubs = b.serverSubs := by
  unfold send
  split
  · split <;> rfl
  · rfl

def dropCovered (subject : String) (b : Bus) (existing : String) : Bus :=
  if existing ≠ subject ∧ matchesSubject subject existing then
    send (.unsub existing) { b with serverSubs := b.serverSubs.filter (· ≠ existing) }
  else b

def addServerSub (subject : String) (b : Bus) : Bus :=
  if b.serverSubs.any fun existing => matchesSubject existing subject then b
  else
    let b := b.serverSubs.foldl (dropCovered subject) b
    send (.sub subject) { b with serverSubs := b.serverSubs ++ [subject] }

def restore (pattern : String) : Bus :=
  if pattern ∈ b.serverSubs ∨ (b.serverSubs.any fun s => matchesSubject s pattern) = true then b
  else send (.sub pattern) { b with serverSubs := b.serverSubs ++ [pattern] }

def removeServerSub (subject : String) (b : Bus) : Bus :=
  if subject ∈ b.serverSubs then
    let b := send (.unsub subject) { b with serverSubs := b.serverSubs.filter (· ≠ subject) }
    (b.subs.map Prod.fst).foldl restore b
  else b

def setHandlers (subject : String) (handlers : List Handler) (b : Bus) : Bus :=
  { b with subs := b.subs.map fun e => if e.1 = subject then (subject, handlers) else e }

def subscribe (subject : String) (handler : Handler) (b : Bus) : Bus :=
  match b.subs.lookup subject with
  | some handlers => b.setHandlers subject (if handler ∈ handlers then handlers else handlers ++ [handler])
  | none => addServerSub subject { b with subs := b.subs ++ [(subject, [handler])] }

def unsubscribe (subject : String) (handler : Handler) (b : Bus) : Bus :=
  match b.subs.lookup subject with
  | none => b
  | some handlers =>
    let rest := handlers.filter (· ≠ handler)
    if rest = [] then removeServerSub subject { b with subs := b.subs.filter fun e => e.1 ≠ subject }
    else b.setHandlers subject rest

def publish (subject : String) (data : List UInt8) (b : Bus) : Bus := b.send (.pub subject data)

def connect : Bus :=
  if b.cred.isNone then b else { b with sockets := b.sockets ++ [{}], ws := some b.sockets.length }

def scheduleRefresh : Bus := if b.cred.isNone then b else { b with refreshTimer := true }

def onopen (i : Nat) (b : Bus) : Bus :=
  { (b.sendOn i ((b.serverSubs.map .sub) ++ b.queue)) with queue := [] }

def onclose : Bus := { b with ws := none, reconnects := b.reconnects + 1 }

/-- `WebSocket.close`; the close event comes later. -/
def close (i : Nat) (b : Bus) : Bus :=
  b.setSocket i fun s => if s.readyState = .closed then s else { s with readyState := .closing }

def start (fetched : Option NatsCred) (b : Bus) : Bus :=
  match fetched with
  | none => b
  | some cred => connect (scheduleRefresh { b with cred := some cred })

def refresh (fetched : Option NatsCred) (b : Bus) : Bus :=
  match fetched with
  | none => { b with refreshTimer := true }
  | some cred =>
    let b := scheduleRefresh { b with cred := some cred }
    match b.ws with
    | some i => connect { b.close i with ws := none }
    | none => connect b

def dispatch (subject : String) : List (String × Handler) :=
  (((b.subs.lookup subject).getD []).map fun h => (subject, h)) ++
    b.subs.flatMap fun e =>
      if e.1 = subject then []
      else if !(e.1.toList.any fun c => c = '*' || c = '>') then []
      else if !matchesSubject e.1 subject then []
      else e.2.map fun h => (e.1, h)

def onmessage (subject : String) (b : Bus) : Bus := { b with calls := b.calls ++ b.dispatch subject }

/-- A frame that the server sends reaches every socket that is open. -/
def frame (subject : String) (b : Bus) : Bus :=
  (b.sockets.filter (·.readyState = .open)).foldl (fun b _ => b.onmessage subject) b

inductive Event
  | started (fetched : Option NatsCred)
  | subscribe (subject : String) (handler : Handler)
  | unsubscribe (subject : String) (handler : Handler)
  | publish (subject : String) (data : List UInt8)
  | opened (i : Nat)
  | frame (subject : String)
  /-- the server or the network begins to close the socket -/
  | closing (i : Nat)
  | closed (i : Nat)
  | reconnectTimer
  | refreshTimer
  | refreshed (fetched : Option NatsCred)

def stateOf (i : Nat) : Option ReadyState := b.sockets[i]?.map (·.readyState)

def setState (i : Nat) (r : ReadyState) (b : Bus) : Bus := b.setSocket i fun s => { s with readyState := r }

def next : Event → Option Bus
  | .started fetched => if b.starting then some (start fetched { b with starting := false }) else none
  | .subscribe subject handler => some (b.subscribe subject handler)
  | .unsubscribe subject handler => some (b.unsubscribe subject handler)
  | .publish subject data => some (b.publish subject data)
  | .opened i => if b.stateOf i = some .connecting then some ((b.setState i .open).onopen i) else none
  | .frame subject => some (b.frame subject)
  | .closing i => if b.stateOf i = some .connecting ∨ b.stateOf i = some .open then some (b.setState i .closing) else none
  | .closed i =>
    if b.stateOf i ≠ none ∧ b.stateOf i ≠ some .closed then some (b.setState i .closed).onclose else none
  | .reconnectTimer => if 0 < b.reconnects then some (connect { b with reconnects := b.reconnects - 1 }) else none
  | .refreshTimer => if b.refreshTimer then some { b with refreshTimer := false, refreshing := true } else none
  | .refreshed fetched => if b.refreshing then some (refresh fetched { b with refreshing := false }) else none

inductive Step (b : Bus) : Event → Bus → Prop
  | started (fetched : Option NatsCred) (hstarting : b.starting = true) :
      Step b (.started fetched) (start fetched { b with starting := false })
  | subscribe (subject : String) (handler : Handler) : Step b (.subscribe subject handler) (b.subscribe subject handler)
  | unsubscribe (subject : String) (handler : Handler) : Step b (.unsubscribe subject handler) (b.unsubscribe subject handler)
  | publish (subject : String) (data : List UInt8) : Step b (.publish subject data) (b.publish subject data)
  | opened (i : Nat) (hstate : b.stateOf i = some .connecting) : Step b (.opened i) ((b.setState i .open).onopen i)
  | frame (subject : String) : Step b (.frame subject) (b.frame subject)
  | closing (i : Nat) (r : ReadyState) (hstate : b.stateOf i = some r) (hlive : r = .connecting ∨ r = .open) :
      Step b (.closing i) (b.setState i .closing)
  | closed (i : Nat) (r : ReadyState) (hstate : b.stateOf i = some r) (hnot : r ≠ .closed) :
      Step b (.closed i) (b.setState i .closed).onclose
  | reconnectTimer (htimer : 0 < b.reconnects) : Step b .reconnectTimer (connect { b with reconnects := b.reconnects - 1 })
  | refreshTimer (htimer : b.refreshTimer = true) : Step b .refreshTimer { b with refreshTimer := false, refreshing := true }
  | refreshed (fetched : Option NatsCred) (hrefreshing : b.refreshing = true) :
      Step b (.refreshed fetched) (refresh fetched { b with refreshing := false })

theorem step_of_next {b b' : Bus} {e : Event} (h : b.next e = some b') : b.Step e b' := by
  cases e with
  | started fetched =>
    obtain ⟨hstarting, hb'⟩ := Option.ite_none_right_eq_some.mp h
    cases hb'
    exact .started fetched hstarting
  | subscribe subject handler =>
    cases h
    exact .subscribe subject handler
  | unsubscribe subject handler =>
    cases h
    exact .unsubscribe subject handler
  | publish subject data =>
    cases h
    exact .publish subject data
  | opened i =>
    obtain ⟨hstate, hb'⟩ := Option.ite_none_right_eq_some.mp h
    cases hb'
    exact .opened i hstate
  | frame subject =>
    cases h
    exact .frame subject
  | closing i =>
    obtain ⟨hstate, hb'⟩ := Option.ite_none_right_eq_some.mp h
    cases hb'
    rcases hstate with hstate | hstate
    · exact .closing i _ hstate (.inl rfl)
    · exact .closing i _ hstate (.inr rfl)
  | closed i =>
    obtain ⟨⟨hsome, hnot⟩, hb'⟩ := Option.ite_none_right_eq_some.mp h
    cases hb'
    obtain ⟨r, hr⟩ := Option.ne_none_iff_exists'.mp hsome
    exact .closed i r hr fun heq => hnot (heq ▸ hr)
  | reconnectTimer =>
    obtain ⟨htimer, hb'⟩ := Option.ite_none_right_eq_some.mp h
    cases hb'
    exact .reconnectTimer htimer
  | refreshTimer =>
    obtain ⟨htimer, hb'⟩ := Option.ite_none_right_eq_some.mp h
    cases hb'
    exact .refreshTimer htimer
  | refreshed fetched =>
    obtain ⟨hrefreshing, hb'⟩ := Option.ite_none_right_eq_some.mp h
    cases hb'
    exact .refreshed fetched hrefreshing

def init : Bus := { starting := true }

end Bus

end Waypoint.Dashboard
