import Phonebook.Client.Remote
import Phonebook.Server.Linearization
import Phonebook.Server.Progress
import Phonebook.Server.Stateful

/-! # Clients and a provider over a network

Any number of clients call a provider. A call sends a message; some time later a thread of the
provider receives it and works on it, statement by statement and among the others, locking and
unlocking `m_backends_mtx`; some time after it responded the client takes the response out of the
archive, at once or in `AsyncRequest::wait`. Along every order of these steps the clients see what
they would see if their calls were calls of the handlers, one after the other
(`clients_linearizable`). -/

namespace Phonebook.Client.Network

open Phonebook.Data.Values Phonebook.Data.Archives Phonebook.Lib.Codecs
open Phonebook.Lib.Linearizability Phonebook.Lib.Runs Phonebook.Lib.Faults Phonebook.Server.Backends
open Phonebook.Server.Provider Phonebook.Server.Handlers Phonebook.Server.Threads
open Phonebook.Server.Removal Phonebook.Server.Locking Phonebook.Server.Process
open Phonebook.Server.Progress Phonebook.Server.Linearization Phonebook.Server.Stateful
open Phonebook.Client.Handle Phonebook.Client.Remote

/-- The calls that go to a provider. `makePhonebookHandle` does if it is to check the id; `result`
is what the pointer given to `computeSum` points to, if it is not null. -/
inductive ClientCall where
  | createPhonebook (phonebookType phonebookConfig token : String)
  | openPhonebook (phonebookType phonebookConfig token : String)
  | closePhonebook (phonebookId : UUID) (token : String)
  | destroyPhonebook (phonebookId : UUID) (token : String)
  | makePhonebookHandle (phonebookId : UUID)
  | sayHello (phonebookId : UUID)
  | computeSum (phonebookId : UUID) (x y : Int32) (result : Option Int32)

/-- What a client gets back. -/
inductive Returned where
  | uuid (id : Call UUID)
  | unit (u : Call Unit)
  | handle (h : Call PhonebookHandle)
  | sum (u : Call Unit) (result : Option Int32)
  /-- from `yp_say_hello`, which is defined with `disable_response` -/
  | nothing
deriving DecidableEq

/-! ### Messages -/

section Messages
variable {σ : Type} (A : Archive σ)

/-- The name of the RPC and the arguments, serialized. -/
def message : ClientCall → Message σ
  | .createPhonebook phonebookType phonebookConfig token =>
    ⟨"yp_create_phonebook",
      (A.string.pair (A.string.pair A.string)).put (token, phonebookType, phonebookConfig)⟩
  | .openPhonebook phonebookType phonebookConfig token =>
    ⟨"yp_open_phonebook", (A.string.pair (A.string.pair A.string)).put
      (token, phonebookType, phonebookConfig)⟩
  | .closePhonebook phonebookId token =>
    ⟨"yp_close_phonebook", (A.string.pair A.uuid).put (token, phonebookId)⟩
  | .destroyPhonebook phonebookId token =>
    ⟨"yp_destroy_phonebook", (A.string.pair A.uuid).put (token, phonebookId)⟩
  | .makePhonebookHandle phonebookId => ⟨"yp_check_phonebook", A.uuid.put phonebookId⟩
  | .sayHello phonebookId => ⟨"yp_say_hello", A.uuid.put phonebookId⟩
  | .computeSum phonebookId x y _ =>
    ⟨"yp_compute_sum", (A.uuid.pair (A.int32.pair A.int32)).put (phonebookId, x, y)⟩

/-- The request the clients have in mind. -/
def requestOf (drawn : UUID) : ClientCall → Request
  | .createPhonebook phonebookType phonebookConfig token =>
    .createPhonebook token phonebookType phonebookConfig drawn
  | .openPhonebook phonebookType phonebookConfig token =>
    .openPhonebook token phonebookType phonebookConfig drawn
  | .closePhonebook phonebookId token => .closePhonebook token phonebookId
  | .destroyPhonebook phonebookId token => .destroyPhonebook token phonebookId
  | .makePhonebookHandle phonebookId => .checkPhonebook phonebookId
  | .sayHello phonebookId => .sayHello phonebookId
  | .computeSum phonebookId x y _ => .computeSum phonebookId x y

/-- The symbols of a response taken for a result without a value of its own. -/
def readBool {β : Type} (response : Option (List σ)) (value : β) : Call β :=
  match response.bind A.requestResultBool.read with
  | none => .unanswered
  | some result => unwrap result.success result.error value

/-- The symbols of a response taken for a result with an id. -/
def readUUID (response : Option (List σ)) : Call UUID :=
  match response.bind (A.requestResult A.uuid).read with
  | none => .unanswered
  | some (success, error, value) => unwrap success error value

/-- What a client makes of a response. -/
def returns (response : Option (List σ)) : ClientCall → Returned
  | .createPhonebook _ _ _ | .openPhonebook _ _ _ => .uuid (readUUID A response)
  | .closePhonebook _ _ | .destroyPhonebook _ _ => .unit (readBool A response ())
  | .makePhonebookHandle phonebookId => .handle (readBool A response ⟨some ⟨phonebookId⟩⟩)
  | .sayHello _ => .nothing
  | .computeSum _ _ _ result =>
    match response.bind (A.requestResult A.int32).read with
    | none => .sum .unanswered result
    | some (success, error, value) =>
      .sum (unwrap success error ()) (if success then result.map fun _ => value else result)

/-- The client waits for a response. -/
def awaits : ClientCall → Bool
  | .sayHello _ => false
  | _ => true

end Messages

/-- The archive, the libraries and backends, the calls there will be, and for each of them the
storage its result is created in and the id that is drawn. -/
structure Setup (σ ι α : Type) where
  archive : Archive σ
  env : Env α
  calls : ι → ClientCall
  storage : ι → Storage
  drawn : ι → UUID

variable {σ ι α : Type}

/-! ### The network -/

/-- The threads of the provider, the messages that were sent, what the calls returned, and what was
called and returned in which order. -/
structure Net (σ ι α : Type) where
  server : Locked ι α
  sent : ι → Option (Message σ)
  returned : ι → Option Returned
  history : List (Event ι Returned)

/-- Before the first call. -/
def Net.start (mToken : String) (s : Store α) : Net σ ι α :=
  ⟨.start mToken s, fun _ => none, fun _ => none, []⟩

/-- A client calls, a thread of the provider goes on, a client takes its response. -/
inductive Op (ι : Type) where
  | send (i : ι)
  | work (i : ι)
  | collect (i : ι)
deriving DecidableEq

/-- The outcome of a handler that has responded. -/
def responded : Pc → Option Outcome
  | .refused out | .answered out => some out
  | _ => none

namespace Setup
variable (S : Setup σ ι α)

/-- What a remote call of its own would meet. -/
def peer (p : ProviderImpl α) (i : ι) : Peer σ α := ⟨S.archive, S.env, p, S.storage i, S.drawn i⟩

/-- The request that arrives. -/
def arrived (i : ι) (m : Message σ) : Option Request := receive (S.peer ⟨"", ∅⟩ i) m

/-- What the client makes of an outcome, the response being serialized and deserialized. -/
def view (i : ι) (out : Outcome) : Returned :=
  returns S.archive (out.1.head?.map (S.archive.respond (S.storage i))) (S.calls i)

variable [DecidableEq ι]

/-- A step of a client or of the provider. -/
def step (n : Net σ ι α) : Op ι → Net σ ι α
  | .send i =>
    match n.sent i with
    | some _ => n
    | none =>
      { n with
        sent := Function.update n.sent i (some (message S.archive (S.calls i)))
        history := n.history ++ [.invoke i] }
  | .work i =>
    match (n.sent i).bind (S.arrived i) with
    | none => n
    | some r => { n with server := n.server.step S.env i fun _ => r }
  | .collect i =>
    match responded (n.server.pc i), n.returned i with
    | some out, none =>
      if awaits (S.calls i) ∧ out.1 ≠ [] then
        { n with
          returned := Function.update n.returned i (some (S.view i out))
          history := n.history ++ [.answer i (S.view i out)] }
      else n
    | _, _ => n

/-- The network after the steps. -/
def run (mToken : String) (s : Store α) (ops : List (Op ι)) : Net σ ι α :=
  exec S.step (.start mToken s) ops

end Setup

/-! ### Calling the handlers directly -/

/-- A call of the handler instead of the provider, and what the client makes of the result. -/
def Setup.direct (S : Setup σ ι α) (p : ProviderImpl α) (i : ι) : ProviderImpl α × Returned :=
  match S.calls i with
  | .createPhonebook phonebookType phonebookConfig token =>
    let r :=
      directUUID (S.storage i) (createPhonebookRPC S.env p token phonebookType phonebookConfig
        (S.drawn i))
    (r.2, .uuid r.1)
  | .openPhonebook phonebookType phonebookConfig token =>
    let r :=
      directUUID (S.storage i) (openPhonebookRPC S.env p token phonebookType phonebookConfig
        (S.drawn i))
    (r.2, .uuid r.1)
  | .closePhonebook phonebookId token =>
    let r := directBool (closePhonebookRPC S.env p token phonebookId) ()
    (r.2, .unit r.1)
  | .destroyPhonebook phonebookId token =>
    let r := directBool (destroyPhonebookRPC S.env p token phonebookId) ()
    (r.2, .unit r.1)
  | .makePhonebookHandle phonebookId =>
    let r := directBool (checkPhonebookRPC S.env p phonebookId) ⟨some ⟨phonebookId⟩⟩
    (r.2, .handle r.1)
  | .sayHello phonebookId => ((sayHelloRPC S.env p phonebookId).provider, .nothing)
  | .computeSum phonebookId x y result =>
    let r := directSum (S.storage i) (computeSumRPC S.env p phonebookId x y) result
    (r.2.2, .sum r.1 r.2.1)

/-- The requests of the calls. -/
def Setup.requests (S : Setup σ ι α) (i : ι) : Request := requestOf (S.drawn i) (S.calls i)

/-- What may happen to the process of the provider at a step. -/
def Setup.faults (S : Setup σ ι α) (hangs : ι → Pc → Bool) : Fault (Net σ ι α) (Op ι) where
  hangs n
    | .work i => foreign (S.requests i) (n.server.pc i) && hangs i (n.server.pc i)
    | .send _ | .collect _ => false
  breaks n
    | .work i => lost (n.server.pc i)
    | .send _ | .collect _ => false

/-- A step of a client or of the provider, as far as it goes. -/
def Setup.process [DecidableEq ι] (S : Setup σ ι α) (hangs : ι → Pc → Bool) :
    Faulty (Net σ ι α) → Op ι → Faulty (Net σ ι α) :=
  (S.faults hangs).step S.step

/-- The network after the steps, as far as they go. -/
def Setup.processRun [DecidableEq ι] (S : Setup σ ι α) (hangs : ι → Pc → Bool) (mToken : String)
    (s : Store α) (ops : List (Op ι)) : Faulty (Net σ ι α) :=
  exec (S.process hangs) (sound (.start mToken s)) ops

theorem exists_lost [DecidableEq ι] {S : Setup σ ι α} {hangs : ι → Pc → Bool} {mToken : String}
    {s : Store α} {ops : List (Op ι)} (hw : (S.processRun hangs mToken s ops).whole = false) :
    ∃ i, lost ((S.processRun hangs mToken s ops).state.server.pc i) = true := by
  obtain ⟨o, -, hbreaks⟩ := Fault.exists_breaks hw
  rcases o with i | i | i
  · cases hbreaks
  · exact ⟨i, hbreaks⟩
  · cases hbreaks

theorem receive_message (peer : Peer σ α) (call : ClientCall) :
    receive peer (message peer.archive call) = some (requestOf peer.drawn call) := by
  cases call <;> simp [receive, message, requestOf]

theorem handle_message (S : Setup σ ι α) (p : ProviderImpl α) (i : ι) :
    handle (S.peer p i) (message S.archive (S.calls i)) =
      ((serve S.env p (S.requests i)).responses.map (S.archive.respond (S.storage i)),
        (serve S.env p (S.requests i)).provider) := by
  have hr : receive (S.peer p i) (message S.archive (S.calls i)) = some (S.requests i) :=
    receive_message (S.peer p i) (S.calls i)
  rw [handle, hr]
  rfl

theorem callUUID_read (peer : Peer σ α) (m : Message σ) :
    callUUID peer m = (readUUID peer.archive (handle peer m).1.head?, (handle peer m).2) := by
  unfold callUUID on readUUID
  rfl

theorem callBool_read {β : Type} (peer : Peer σ α) (m : Message σ) (value : β) :
    callBool peer m value = (readBool peer.archive (handle peer m).1.head? value,
      (handle peer m).2) := by
  unfold callBool on readBool
  rfl

section Direct
variable (S : Setup σ ι α) (p : ProviderImpl α) (i : ι)

theorem directUUID_eq (ha : Answers .uuid (serve S.env p (S.requests i))) :
    directUUID (S.storage i) (serve S.env p (S.requests i)) =
      (readUUID S.archive ((serve S.env p (S.requests i)).responses.head?.map
        (S.archive.respond (S.storage i))),
        (serve S.env p (S.requests i)).provider) := by
  have hr : receive (S.peer p i) (message S.archive (S.calls i)) = some (S.requests i) :=
    receive_message (S.peer p i) (S.calls i)
  have hcall := callUUID_eq hr ha
  rw [callUUID_read, handle_message, List.head?_map] at hcall
  exact hcall.symm

theorem directBool_eq {β : Type} (value : β) (ha : Answers .bool (serve S.env p (S.requests i))) :
    directBool (serve S.env p (S.requests i)) value =
      (readBool S.archive ((serve S.env p (S.requests i)).responses.head?.map
        (S.archive.respond (S.storage i))) value,
        (serve S.env p (S.requests i)).provider) := by
  have hr : receive (S.peer p i) (message S.archive (S.calls i)) = some (S.requests i) :=
    receive_message (S.peer p i) (S.calls i)
  have hcall := callBool_eq value hr ha
  rw [callBool_read, handle_message, List.head?_map] at hcall
  exact hcall.symm

end Direct

theorem directSum_eq (S : Setup σ ι α) (p : ProviderImpl α) {i : ι} {id : UUID} {x y : Int32}
    {result : Option Int32} (hcall : S.calls i = .computeSum id x y result) :
    let r := directSum (S.storage i) (computeSumRPC S.env p id x y) result
    (r.2.2, Returned.sum r.1 r.2.1) = ((computeSumRPC S.env p id x y).provider,
      returns S.archive ((computeSumRPC S.env p id x y).responses.head?.map
        (S.archive.respond (S.storage i)))
        (.computeSum id x y result)) := by
  have hhandle := handle_message S p i
  have hreq : S.requests i = .computeSum id x y := by rw [Setup.requests, hcall]; rfl
  rw [hcall, hreq] at hhandle
  have hsum : Remote.computeSum (S.peer p i) ⟨some ⟨id⟩⟩ x y result =
      directSum (S.storage i) (computeSumRPC S.env p id x y) result :=
    computeSum_eq (S.peer p i) id x y result
  dsimp only
  rw [← hsum]
  unfold Remote.computeSum on
  dsimp only [message] at hhandle ⊢
  rw [show (S.peer p i).archive = S.archive from rfl, hhandle, List.head?_map]
  dsimp only [returns, serve]
  generalize ((computeSumRPC S.env p id x y).responses.head?.map
    (S.archive.respond (S.storage i))).bind
    (S.archive.requestResult S.archive.int32).read = response
  rcases response with _ | ⟨success, error, value⟩
  · rfl
  · rfl

/-- **A direct call** is the handler at once, its outcome seen by the client. -/
theorem direct_eq (S : Setup σ ι α) (p : ProviderImpl α) (i : ι) :
    S.direct p i = ((atOnce S.env S.requests p i).1, S.view i (atOnce S.env S.requests p i).2) := by
  have huuid := directUUID_eq S p i
  have hunit := directBool_eq S p i ()
  have hreq : S.requests i = requestOf (S.drawn i) (S.calls i) := rfl
  unfold Setup.direct atOnce Setup.view
  cases hcall : S.calls i with
  | createPhonebook phonebookType phonebookConfig token =>
    rw [hcall, requestOf] at hreq
    rw [hreq] at huuid ⊢
    have ha :
      Answers .uuid (createPhonebookRPC S.env p token phonebookType phonebookConfig
        (S.drawn i)) := by
      rw [createPhonebookRPC_eq]
      exact answers_finish _ _
    exact congrArg (fun r : Call UUID × ProviderImpl α => (r.2, Returned.uuid r.1)) (huuid ha)
  | openPhonebook phonebookType phonebookConfig token =>
    rw [hcall, requestOf] at hreq
    rw [hreq] at huuid ⊢
    have ha :
      Answers .uuid (openPhonebookRPC S.env p token phonebookType phonebookConfig (S.drawn i)) := by
      rw [openPhonebookRPC_eq]
      exact answers_finish _ _
    exact congrArg (fun r : Call UUID × ProviderImpl α => (r.2, Returned.uuid r.1)) (huuid ha)
  | closePhonebook phonebookId token =>
    rw [hcall, requestOf] at hreq
    rw [hreq] at hunit ⊢
    exact congrArg (fun r : Call Unit × ProviderImpl α => (r.2, Returned.unit r.1))
      (hunit (answers_closePhonebookRPC token phonebookId))
  | destroyPhonebook phonebookId token =>
    rw [hcall, requestOf] at hreq
    rw [hreq] at hunit ⊢
    exact congrArg (fun r : Call Unit × ProviderImpl α => (r.2, Returned.unit r.1))
      (hunit (answers_destroyPhonebookRPC token phonebookId))
  | makePhonebookHandle phonebookId =>
    have hhandle := directBool_eq S p i (⟨some ⟨phonebookId⟩⟩ : PhonebookHandle)
    rw [hcall, requestOf] at hreq
    rw [hreq] at hhandle ⊢
    exact congrArg (fun r : Call PhonebookHandle × ProviderImpl α => (r.2, Returned.handle r.1))
      (hhandle (answers_checkPhonebookRPC phonebookId))
  | sayHello phonebookId =>
    rw [hcall, requestOf] at hreq
    rw [hreq]
    rfl
  | computeSum phonebookId x y result =>
    rw [hcall, requestOf] at hreq
    rw [hreq]
    exact directSum_eq S p hcall

/-! ### Runs -/

section Run
variable [DecidableEq ι] {S : Setup σ ι α} {n : Net σ ι α} {p₀ : ProviderImpl α}

theorem step_congr {env : Env α} {reqs : ι → Request} {c : Locked ι α} {i : ι} {r : Request}
    (hr : reqs i = r) :
    c.step env i (fun _ => r) = c.step env i reqs := by
  unfold Locked.step
  rw [hr]

/-- The network stays in step with the threads of the provider: they have run on some schedule, they
work on requests that were sent, what a client got back is its view of an answer, and real time is
real time for both sides. -/
structure Agrees (S : Setup σ ι α) (mToken : String) (s : Store α) (n : Net σ ι α) : Prop where
  reaches : ∃ schedule, lockedRun S.env S.requests (.start mToken s) schedule = n.server
  consistent : Consistent S.requests n.server
  logged : Logged (pool S.requests n.server)
  messages : ∀ i m, n.sent i = some m → m = message S.archive (S.calls i)
  sent : ∀ i, .invoke i ∈ n.history ↔ n.sent i ≠ none
  received : ∀ i, .invoke i ∈ n.server.history → .invoke i ∈ n.history
  collected :
    ∀ i r, .answer i r ∈ n.history → ∃ out, r = S.view i out ∧ .answer i out ∈ n.server.history
  realTime :
    ∀ i j, RealTime n.history i j → RealTime n.server.history i j ∨ .invoke j ∉ n.server.history

theorem agrees_start (S : Setup σ ι α) (mToken : String) (s : Store α) :
    Agrees S mToken s (.start mToken s) where
  reaches := ⟨[], rfl⟩
  consistent := consistent_start mToken s
  logged := logged_start mToken s
  messages i m h := by cases h
  sent i := by simp [Net.start]
  received i h := by cases h
  collected i r h := by cases h
  realTime i j h := by
    obtain ⟨pre, mid, post, r, heq⟩ := h
    simp [Net.start] at heq

section Step
variable {mToken : String} {s : Store α} (h : Agrees S mToken s n) (i : ι)
include h

theorem Agrees.send : Agrees S mToken s (S.step n (.send i)) := by
  dsimp only [Setup.step]
  cases hsent : n.sent i with
  | some m => exact h
  | none =>
    have hnot : .invoke i ∉ n.history := by rw [h.sent, hsent]; exact fun hn => hn rfl
    refine ⟨h.reaches, h.consistent, h.logged, fun j m hm => ?_, fun j => ?_, fun j hj => ?_,
      fun j r hr => ?_,
      fun j k hrt => ?_⟩
    · change Function.update n.sent i (some (message S.archive (S.calls i))) j = some m at hm
      by_cases hj : j = i
      · subst hj
        rw [Function.update_self] at hm
        exact (Option.some.inj hm).symm
      · rw [Function.update_of_ne hj] at hm
        exact h.messages j m hm
    · show .invoke j ∈ n.history ++ [.invoke i] ↔
        Function.update n.sent i (some (message S.archive (S.calls i))) j ≠ none
      by_cases hj : j = i
      · subst hj
        simp
      · simp [hj, h.sent]
    · exact List.mem_append_left _ (h.received j hj)
    · obtain hr | hr := List.mem_append.mp hr
      · exact h.collected j r hr
      · cases List.mem_singleton.mp hr
    · rcases realTime_concat hrt with hold | heq
      · exact h.realTime j k hold
      · obtain rfl : i = k := Event.invoke.inj heq
        exact Or.inr fun hk => hnot (h.received i hk)

theorem Agrees.arrived {r : Request} (hr : (n.sent i).bind (S.arrived i) = some r) :
    S.requests i = r := by
  obtain ⟨m, hm, hrm⟩ := Option.bind_eq_some_iff.mp hr
  rw [h.messages i m hm] at hrm
  exact Option.some.inj ((receive_message (S.peer ⟨"", ∅⟩ i) (S.calls i)).symm.trans hrm)

theorem Agrees.work : Agrees S mToken s (S.step n (.work i)) := by
  dsimp only [Setup.step]
  cases hr : (n.sent i).bind (S.arrived i) with
  | none => exact h
  | some r =>
    have hsent : .invoke i ∈ n.history := by
      rw [h.sent]
      intro hn
      rw [hn] at hr
      cases hr
    dsimp only
    rw [step_congr (h.arrived i hr)]
    set c' := n.server.step S.env i S.requests with hc'
    have hfollows := pool_follows S.env h.consistent i
    have hlogged : Logged (pool S.requests c') := by
      rcases hfollows with heq | heq
      · rw [heq]
        exact h.logged
      · rw [heq]
        exact h.logged.step i
    have hreaches : ∃ schedule, lockedRun S.env S.requests (.start mToken s) schedule = c' := by
      obtain ⟨schedule, hsched⟩ := h.reaches
      exact ⟨schedule ++ [i], by rw [lockedRun_concat, hsched]⟩
    -- what the step adds to what the provider sees
    have hhist : c'.history = n.server.history ∨ c'.history = n.server.history ++ [.invoke i] ∨
        ∃ out, c'.history = n.server.history ++ [.answer i out] := by
      rcases hfollows with heq | heq
      · exact Or.inl (congrArg Pool.history heq)
      · have hpool := history_step S.env S.requests (pool S.requests n.server) i
        rw [← heq] at hpool
        exact hpool
    refine ⟨hreaches, h.consistent.step i, hlogged, h.messages, h.sent, fun j hj => ?_,
      fun j r' hr' => ?_,
      fun j k hrt => ?_⟩
    · rcases hhist with heq | heq | ⟨out, heq⟩
      · exact h.received j (heq ▸ hj)
      · rw [heq] at hj
        rcases List.mem_append.mp hj with hj | hj
        · exact h.received j hj
        · obtain rfl : j = i := Event.invoke.inj (List.mem_singleton.mp hj)
          exact hsent
      · rw [heq] at hj
        exact h.received j (by simpa using hj)
    · obtain ⟨out, hview, hout⟩ := h.collected j r' hr'
      refine ⟨out, hview, ?_⟩
      rcases hhist with heq | heq | ⟨out', heq⟩ <;> rw [heq]
      · exact hout
      · exact List.mem_append_left _ hout
      · exact List.mem_append_left _ hout
    · rcases h.realTime j k hrt with hold | hnot
      · left
        rcases hhist with heq | heq | ⟨out', heq⟩ <;> rw [heq]
        · exact hold
        · exact hold.append _
        · exact hold.append _
      · rcases hhist with heq | heq | ⟨out', heq⟩ <;> rw [heq]
        · exact Or.inr hnot
        · by_cases hk : k = i
          · -- the request arrives now, after the other was answered and its client had the answer
            subst hk
            obtain ⟨r', hr'⟩ := hrt.answered
            obtain ⟨out, -, hout⟩ := h.collected j r' hr'
            exact Or.inl (realTime_of_answered hout)
          · exact Or.inr (by simp [hnot, hk])
        · exact Or.inr (by simp [hnot])

theorem Agrees.collect : Agrees S mToken s (S.step n (.collect i)) := by
  dsimp only [Setup.step]
  rcases hpc : responded (n.server.pc i) with _ | out
  · exact h
  rcases hret : n.returned i with _ | r
  swap
  · exact h
  dsimp only
  split_ifs
  swap
  · exact h
  have hout : .answer i out ∈ n.server.history := by
    have hphase : (pool S.requests n.server).phase i = .answered out := by
      rcases hpci : n.server.pc i <;> rw [hpci] at hpc <;> cases hpc
      · exact pool_phase hpci
      · exact pool_phase hpci
    exact (h.logged.answered i out).mpr hphase
  refine ⟨h.reaches, h.consistent, h.logged, h.messages, fun j => ?_, fun j hj => ?_,
    fun j r hr => ?_,
    fun j k hrt => ?_⟩
  · rw [← h.sent]
    simp
  · exact List.mem_append_left _ (h.received j hj)
  · rcases List.mem_append.mp hr with hr | hr
    · exact h.collected j r hr
    · obtain ⟨rfl, rfl⟩ := Event.answer.inj (List.mem_singleton.mp hr)
      exact ⟨out, rfl, hout⟩
  · rcases realTime_concat hrt with hold | heq
    · exact h.realTime j k hold
    · cases heq

/-- **One step** of a client or of the provider. -/
theorem Agrees.step (o : Op ι) : Agrees S mToken s (S.step n o) := by
  cases o with
  | send i => exact h.send i
  | work i => exact h.work i
  | collect i => exact h.collect i

end Step

theorem agrees_run (S : Setup σ ι α) (mToken : String) (s : Store α) (ops : List (Op ι)) :
    Agrees S mToken s (S.run mToken s ops) :=
  exec_induction S.step (P := Agrees S mToken s) (agrees_start S mToken s)
    (fun _ o h => h.step o) ops

/-- With their sections as one step each the threads of the provider have run on some schedule,
too. -/
theorem Agrees.pool_eq {mToken : String} {s : Store α} (h : Agrees S mToken s n) :
    ∃ schedule, pool S.requests n.server = run S.env S.requests (.start mToken s) schedule := by
  obtain ⟨schedule, hreaches⟩ := h.reaches
  obtain ⟨schedule', -, hmap⟩ :=
    (pool_refines S.env S.requests).run (consistent_start mToken s) schedule
  refine ⟨schedule', ?_⟩
  rw [← hreaches]
  exact hmap

/-- If the threads of the provider are linearizable on every schedule, then so is what the clients
see. -/
theorem linearizes_of_server (S : Setup σ ι α) (p₀ : ProviderImpl α) (mToken : String) (s : Store α)
    (h : ∀ schedule, ∃ order, Linearizes (atOnce S.env S.requests) p₀
      (run S.env S.requests (.start mToken s) schedule).history order) (ops : List (Op ι)) :
    ∃ order, Linearizes S.direct p₀ (S.run mToken s ops).history order := by
  have hagrees := agrees_run S mToken s ops
  obtain ⟨schedule', hpool⟩ := hagrees.pool_eq
  have hhist : (S.run mToken s ops).server.history =
      (run S.env S.requests (.start mToken s) schedule').history := congrArg Pool.history hpool
  obtain ⟨order, hlin⟩ := h schedule'
  rw [← hhist] at hlin
  exact ⟨order, hlin.widen S.view (direct_eq S) hagrees.received hagrees.collected hagrees.realTime⟩

/-- **The clients see one handler after the other.** Whatever clients call and in whatever order
messages are received, threads go on and responses are taken, there is an order of the calls that
linearizes what the clients see, for calls of the handlers themselves: each call returns what the
handler's result, called directly in that order, comes to, and a call that returned before another
was made stands before it. -/
theorem clients_linearizable (S : Setup σ ι α) (hs : S.env.ops.Stateless) (p₀ : ProviderImpl α)
    (mToken : String) (s : Store α) (hp : Represents (.start mToken s : Pool ι α) p₀)
    (ops : List (Op ι)) :
    ∃ order, Linearizes S.direct p₀ (S.run mToken s ops).history order := by
  refine linearizes_of_server S p₀ mToken s (fun schedule => ?_) ops
  obtain ⟨order, hord⟩ := exec_induction (fun c i => Pool.step S.env c i S.requests)
    (P := fun c => ∃ order, Simulates S.env S.requests p₀ c order) ⟨[], simulates_start hp⟩
    (fun c i ⟨order, h⟩ => h.step hs i) schedule
  exact ⟨order, hord.linearizes⟩

end Run

/-- Two calls: one creates a phonebook, the other asks for a type there is not. -/
def createAndFail : Setup Archive.Item Bool DummyPhonebook where
  archive := Archive.plain
  env := DummyPhonebook.env .sample uuidUnparse
  calls
    | false => .createPhonebook "dummy" "\x7b\x7d" ""
    | true => .createPhonebook "oracle" "\x7b\x7d" ""
  storage _ := ⟨.clear, 0⟩
  drawn _ := .clear

/-- The second call is made first, and worked on while the first is. -/
def overlapping : List (Op Bool) :=
  [.send true, .send false, .work true] ++ List.replicate 9 (.work false) ++
    List.replicate 8 (.work true) ++
    [.collect true, .collect false]

theorem clients_linearizable_createAndFail :
    ∃ order,
      Linearizes createAndFail.direct ⟨"", ∅⟩
        (createAndFail.run "" .empty overlapping).history order ∧
      ∀ i, i ∈ order := by
  obtain ⟨order, hlin⟩ :=
    clients_linearizable createAndFail (DummyPhonebook.ops_stateless .sample) ⟨"", ∅⟩ "" .empty
    ⟨rfl, fun id => .none⟩ overlapping
  have hanswers :
    ∀ i, (createAndFail.run "" .empty overlapping).history.any (Event.answers i) = true := by
    decide +kernel
  exact ⟨order, hlin, fun i => hlin.mem_of_any (hanswers i)⟩

end Phonebook.Client.Network
