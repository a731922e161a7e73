import ZephyrVox.Realtime.Commands

/-!
# Command correlation

Whatever the order of calls, response frames, timeouts, cancellations and socket losses,
the map of waiters stays within its bound and holds entries of running calls only, and a
call gets an answer of the server only from the frame that names its identifier.

## Main definitions

* `AnsweredBy` — where a result can come from.
* `ConnectionInner.Correlated` — the invariant of the waiters.
* `ConnectionInner.correlated_step` — every step keeps it.
* `commands_are_correlated` — what holds after every run.
-/

namespace ZephyrVox.Realtime

open Transition

/-- The result of a call. -/
def CallPc.result : CallPc → Option (Except RealtimeError CommandAck)
  | .leaving _ result | .returned _ result => some result
  | _ => none

/-- A result that no response frame has. -/
def Unserved (result : Except RealtimeError CommandAck) : Prop :=
  ∀ response : CommandResponse, response.result ≠ result

/-- A result is the client's own, or that of the frame which completed the call `i` and
names its identifier. -/
def AnsweredBy (responses : List (CommandResponse × Option ℕ)) (i : ℕ) (id : Option String)
    (result : Except RealtimeError CommandAck) : Prop :=
  Unserved result ∨ ∃ response : CommandResponse, (response, some i) ∈ responses ∧
    id = some response.requestId ∧ response.result = result

theorem AnsweredBy.mono {responses responses' : List (CommandResponse × Option ℕ)} {i : ℕ}
    {id id' : Option String} {result : Except RealtimeError CommandAck}
    (h : AnsweredBy responses i id result) (hsub : ∀ x ∈ responses, x ∈ responses')
    (hid : id' = id ∨ id = none) : AnsweredBy responses' i id' result := by
  obtain hown | ⟨response, hmem, hsome, hresult⟩ := h
  · exact .inl hown
  · obtain rfl | hnone := hid
    · exact .inr ⟨response, hsub _ hmem, hsome, hresult⟩
    · rw [hnone] at hsome
      cases hsome

theorem unserved_of_ne_serverCommand {error : RealtimeError}
    (h : ∀ e, error ≠ .serverCommand e) : Unserved (.error error) := by
  intro response heq
  cases response with
  | commandOk ack => cases heq
  | commandError e => exact h e (Except.error.inj heq).symm

theorem CallPc.requestId_of_guards {pc : CallPc} {id : String} (h : pc.guards = some id) :
    pc.requestId = some id := by
  cases pc <;> first | exact h | cases h

namespace ConnectionInner

variable {maximum : ℕ} {c c' : ConnectionInner} {i : ℕ}

/-- The invariant of the waiters. -/
structure Correlated (maximum : ℕ) (c : ConnectionInner) : Prop where
  size : c.pending.length ≤ maximum
  /-- A waiter is that of a call whose guard will remove it. -/
  entry : ∀ e ∈ c.pending, (c.calls e.2).pc.guards = some e.1
  issued : ∀ i id, (c.calls i).pc.requestId = some id →
    ∃ millis sequence, sequence ≤ c.sequence ∧ id = requestId millis sequence
  distinct : ∀ i j id, (c.calls i).pc.requestId = some id →
    (c.calls j).pc.requestId = some id → i = j
  reply : ∀ i result, (c.calls i).reply = some result →
    AnsweredBy c.responses i (c.calls i).pc.requestId result
  result : ∀ i result, (c.calls i).pc.result = some result →
    AnsweredBy c.responses i (c.calls i).pc.requestId result

theorem correlated_new (maximum : ℕ) : new.Correlated maximum where
  size := Nat.zero_le _
  entry _ h := by cases h
  issued _ _ h := by cases h
  distinct _ _ _ h := by cases h
  reply _ _ h := by cases h
  result _ _ h := by cases h

/-- The identifier of a call after a step: as before, or a new one. -/
def Identified (c c' : ConnectionInner) (before after : Option String) : Prop :=
  after = before ∨ before = none ∧
    ∃ millis, after = some (requestId millis c'.sequence) ∧ c.sequence < c'.sequence

/-- **A step of one call**, which completes no waiter. -/
theorem Correlated.update (H : c.Correlated maximum) {d : Call}
    (hcalls : c'.calls = Function.update c.calls i d)
    (hresponses : c'.responses = c.responses) (hsequence : c.sequence ≤ c'.sequence)
    (hsize : c'.pending.length ≤ maximum)
    (hothers : ∀ e ∈ c'.pending, e.2 ≠ i → e ∈ c.pending)
    (hself : ∀ e ∈ c'.pending, e.2 = i → d.pc.guards = some e.1)
    (hreply : d.reply = (c.calls i).reply)
    (hid : Identified c c' (c.calls i).pc.requestId d.pc.requestId)
    (hresult : ∀ result, d.pc.result = some result → Unserved result ∨
      (c.calls i).reply = some result ∨ (c.calls i).pc.result = some result) :
    c'.Correlated maximum := by
  have hnow : c'.calls i = d := by rw [hcalls, Function.update_self]
  have hothercall {j : ℕ} (hj : j ≠ i) : c'.calls j = c.calls j := by
    rw [hcalls, Function.update_of_ne hj]
  have hsame : (c.calls i).pc.requestId = none ∨
      d.pc.requestId = (c.calls i).pc.requestId := by
    rcases hid with hsame | ⟨hnone, -⟩
    · exact .inr hsame
    · exact .inl hnone
  have hanswers {result : Except RealtimeError CommandAck}
      (h : AnsweredBy c.responses i (c.calls i).pc.requestId result) :
      AnsweredBy c'.responses i d.pc.requestId result :=
    h.mono (fun x hx => by rwa [hresponses]) hsame.symm
  -- an identifier of another call is an old one
  have hfresh {j : ℕ} (hj : j ≠ i) {id : String} (hnew : d.pc.requestId = some id)
      (hold : (c.calls j).pc.requestId = some id) : False := by
    rcases hid with hsame | ⟨-, millis, hsome, hlt⟩
    · exact hj (H.distinct j i id hold (hsame ▸ hnew))
    · obtain ⟨millis', sequence, hle, rfl⟩ := H.issued j id hold
      have heq := sequence_eq_of_requestId_eq (Option.some.inj (hsome.symm.trans hnew))
      omega
  constructor
  · exact hsize
  · intro e he
    by_cases hi : e.2 = i
    · rw [hi, hnow]
      exact hself e he hi
    · rw [hothercall hi]
      exact H.entry e (hothers e he hi)
  · intro j id hj
    by_cases hi : j = i
    · subst hi
      rw [hnow] at hj
      rcases hid with hsame | ⟨-, millis, hsome, hlt⟩
      · obtain ⟨millis, sequence, hle, heq⟩ := H.issued j id (hsame ▸ hj)
        exact ⟨millis, sequence, by omega, heq⟩
      · exact ⟨millis, c'.sequence, by omega, Option.some.inj (hj.symm.trans hsome)⟩
    · rw [hothercall hi] at hj
      obtain ⟨millis, sequence, hle, heq⟩ := H.issued j id hj
      exact ⟨millis, sequence, by omega, heq⟩
  · intro j k id hj hk
    by_cases hji : j = i
    · by_cases hki : k = i
      · exact hji.trans hki.symm
      · rw [hji, hnow] at hj
        rw [hothercall hki] at hk
        exact (hfresh hki hj hk).elim
    · by_cases hki : k = i
      · rw [hki, hnow] at hk
        rw [hothercall hji] at hj
        exact (hfresh hji hk hj).elim
      · rw [hothercall hji] at hj
        rw [hothercall hki] at hk
        exact H.distinct j k id hj hk
  · intro j result hj
    by_cases hi : j = i
    · subst hi
      rw [hnow] at hj ⊢
      exact hanswers (H.reply j result (hreply ▸ hj))
    · rw [hothercall hi] at hj ⊢
      rw [hresponses]
      exact H.reply j result hj
  · intro j result hj
    by_cases hi : j = i
    · subst hi
      rw [hnow] at hj ⊢
      rcases hresult result hj with hown | hreply | hbefore
      · exact .inl hown
      · exact hanswers (H.reply j result hreply)
      · exact hanswers (H.result j result hbefore)
    · rw [hothercall hi] at hj ⊢
      rw [hresponses]
      exact H.result j result hj

/-- A step that leaves calls, waiters and responses alone. -/
theorem Correlated.of_eq (H : c.Correlated maximum) (hcalls : c'.calls = c.calls)
    (hpending : c'.pending = c.pending) (hsequence : c'.sequence = c.sequence)
    (hresponses : c'.responses = c.responses) : c'.Correlated maximum := by
  constructor
  · rw [hpending]
    exact H.size
  · rw [hpending, hcalls]
    exact H.entry
  · rw [hcalls, hsequence]
    exact H.issued
  · rw [hcalls]
    exact H.distinct
  · rw [hcalls, hresponses]
    exact H.reply
  · rw [hcalls, hresponses]
    exact H.result

/-- A call goes on with its waiter. -/
theorem Correlated.goto (H : c.Correlated maximum) {pc : CallPc}
    (hguards : pc.guards = (c.calls i).pc.guards)
    (hid : pc.requestId = (c.calls i).pc.requestId)
    (hresult : ∀ result, pc.result = some result → Unserved result ∨
      (c.calls i).reply = some result ∨ (c.calls i).pc.result = some result) :
    (c.goto i pc).Correlated maximum := by
  refine H.update (i := i) (d := { c.calls i with pc := pc }) rfl rfl le_rfl H.size
    (fun e he _ => he) (fun e he hi => ?_) rfl (.inl hid) hresult
  have hentry := H.entry e he
  rw [hi] at hentry
  exact hguards.trans hentry

/-- A call goes on without its waiter, which its guard has removed. -/
theorem Correlated.leaves (H : c.Correlated maximum) {id : String} {pc : CallPc}
    (hguards : (c.calls i).pc.guards = some id) (hid : pc.requestId = some id)
    (hresult : ∀ result, pc.result = some result → (c.calls i).pc.result = some result) :
    ((c.removePending id).goto i pc).Correlated maximum := by
  refine H.update (i := i) (d := { c.calls i with pc := pc }) rfl rfl le_rfl
    ((List.length_filter_le _ _).trans H.size) (fun e he _ => (List.mem_filter.mp he).1)
    (fun e he hi => ?_) rfl (.inl (hid.trans (CallPc.requestId_of_guards hguards).symm))
    fun result h => .inr (.inr (hresult result h))
  obtain ⟨hmem, hne⟩ := List.mem_filter.mp he
  have hentry := H.entry e hmem
  rw [hi, hguards] at hentry
  exact absurd (Option.some.inj hentry).symm (by simpa using hne)

/-- A call that has no waiter yet. -/
theorem Correlated.not_waiting (H : c.Correlated maximum) (hguards : (c.calls i).pc.guards = none)
    {e : String × ℕ} (he : e ∈ c.pending) : e.2 ≠ i := by
  intro hi
  have hentry := H.entry e he
  rw [hi, hguards] at hentry
  cases hentry

theorem correlated_check (H : c.Correlated maximum) (hpc : (c.calls i).pc = .idle)
    (command : Command) (encodeJson : String → Except String String) :
    (c.check i command encodeJson).Correlated maximum := by
  refine H.update (i := i) (d := _) rfl rfl le_rfl H.size (fun e he _ => he)
    (fun e he hi => absurd hi (H.not_waiting (by rw [hpc]; rfl) he)) rfl (.inl ?_) ?_
  · dsimp only
    rw [hpc]
    split <;> rfl
  · intro result h
    dsimp only at h
    split at h
    · cases h
    · cases h
      exact .inl (unserved_of_ne_serverCommand fun e he => by cases he)

theorem correlated_encode (H : c.Correlated maximum) (hpc : (c.calls i).pc = .checked)
    (millis : ℕ) : (c.encode i millis).Correlated maximum := by
  refine H.update (i := i) (d := _) rfl rfl (Nat.le_succ _) H.size (fun e he _ => he)
    (fun e he hi => absurd hi (H.not_waiting (by rw [hpc]; rfl) he)) rfl (.inr ⟨?_, millis, ?_, ?_⟩)
    ?_
  · rw [hpc]
    rfl
  · dsimp only
    split <;> rfl
  · exact Nat.lt_succ_self _
  · intro result h
    dsimp only at h
    split at h
    · cases h
    · cases h
      exact .inl (unserved_of_ne_serverCommand fun e he => by cases he)

theorem correlated_insert (H : c.Correlated maximum) {id payload : String}
    (hpc : (c.calls i).pc = .encoded id payload) :
    (c.insert maximum i id payload).Correlated maximum := by
  have hnot {e : String × ℕ} (he : e ∈ c.pending) : e.2 ≠ i :=
    H.not_waiting (by rw [hpc]; rfl) he
  unfold insert
  split
  case isTrue =>
    refine H.goto (by rw [hpc]; rfl) (by rw [hpc]; rfl) fun result h => .inl ?_
    cases h
    exact unserved_of_ne_serverCommand fun e he => by cases he
  case isFalse hroom =>
    refine H.update (i := i) (d := { c.calls i with pc := .inserted id payload }) rfl rfl
      le_rfl ?_ ?_ ?_ rfl (.inl (by rw [hpc]; rfl)) fun result h => by cases h
    · have hle : (c.removePending id).pending.length ≤ c.pending.length :=
        List.length_filter_le _ _
      simp only [goto, setCall, List.length_cons]
      omega
    · intro e he hne
      rcases List.mem_cons.mp he with rfl | he
      · exact absurd rfl hne
      · exact (List.mem_filter.mp he).1
    · intro e he hi
      rcases List.mem_cons.mp he with rfl | he
      · rfl
      · exact absurd hi (hnot (List.mem_filter.mp he).1)

theorem correlated_cloneOutbound (H : c.Correlated maximum) {id payload : String}
    (hpc : (c.calls i).pc = .inserted id payload) :
    (c.cloneOutbound i id payload).Correlated maximum := by
  unfold cloneOutbound
  split
  · exact H.goto (by rw [hpc]; rfl) (by rw [hpc]; rfl) fun result h => by cases h
  · refine H.goto (by rw [hpc]; rfl) (by rw [hpc]; rfl) fun result h => .inl ?_
    cases h
    exact unserved_of_ne_serverCommand fun e he => by cases he

theorem correlated_send (H : c.Correlated maximum) {id payload : String} {g : ℕ}
    (hpc : (c.calls i).pc = .sending id payload g) (h : c.send maximum i id payload g = some c') :
    c'.Correlated maximum := by
  unfold send at h
  split at h
  · cases h
  · split at h
    · split at h
      · cases h
        have hqueued : ({ c with handed := c.handed ++ [(i, g)] }.setSocket g fun socket =>
            { socket with queue := socket.queue ++ [payload] }).Correlated maximum :=
          H.of_eq rfl rfl rfl rfl
        refine hqueued.goto ?_ ?_ fun result h => by cases h
        · exact (congrArg CallPc.guards hpc).symm
        · exact (congrArg CallPc.requestId hpc).symm
      · cases h
    · cases h
      refine H.goto (by rw [hpc]; rfl) (by rw [hpc]; rfl) fun result h => .inl ?_
      cases h
      exact unserved_of_ne_serverCommand fun e he => by cases he

theorem correlated_receive (H : c.Correlated maximum) {id : String}
    (hpc : (c.calls i).pc = .waiting id) (h : c.receive i id = some c') :
    c'.Correlated maximum := by
  unfold receive at h
  split at h
  case h_1 result hreply =>
    cases h
    refine H.goto (by rw [hpc]; rfl) (by rw [hpc]; rfl) fun result h => .inr (.inl ?_)
    cases h
    exact hreply
  case h_2 =>
    split at h
    · cases h
    · cases h
      refine H.goto (by rw [hpc]; rfl) (by rw [hpc]; rfl) fun result h => .inl ?_
      cases h
      exact unserved_of_ne_serverCommand fun e he => by cases he

/-! ## The owner -/

/-- The waiter of an identifier is in the map. -/
theorem mem_of_waiter {id : String} (h : c.waiter id = some i) : (id, i) ∈ c.pending := by
  obtain ⟨e, hfind, rfl⟩ := Option.map_eq_some_iff.mp h
  have hmem := List.mem_of_find?_eq_some hfind
  have hid : e.1 = id := by simpa using List.find?_some hfind
  rwa [← hid]

theorem correlated_respond (H : c.Correlated maximum) (response : CommandResponse) :
    (c.respond response).Correlated maximum := by
  have hmono {j : ℕ} {id : Option String} {result : Except RealtimeError CommandAck}
      (h : AnsweredBy c.responses j id result) :
      AnsweredBy (c.responses ++ [(response, c.waiter response.requestId)]) j id result :=
    h.mono (fun x hx => List.mem_append_left _ hx) (.inl rfl)
  unfold respond resolvePending
  split
  case h_1 =>
    exact ⟨H.size, H.entry, H.issued, H.distinct, fun j result hj => hmono (H.reply j result hj),
      fun j result hj => hmono (H.result j result hj)⟩
  case h_2 i hwaiter =>
    have hwaiter : c.waiter response.requestId = some i := hwaiter
    have hguards : (c.calls i).pc.guards = some response.requestId :=
      H.entry _ (mem_of_waiter hwaiter)
    -- the frame changes nothing about the calls but the reply of its waiter
    have hpc (j : ℕ) : (Function.update c.calls i { c.calls i with
        reply := some response.result } j).pc = (c.calls j).pc := by
      by_cases hj : j = i
      · rw [hj, Function.update_self]
      · rw [Function.update_of_ne hj]
    constructor
    · exact (List.length_filter_le _ _).trans H.size
    · intro e he
      simp only [setCall, removePending, hpc]
      exact H.entry e (List.mem_filter.mp he).1
    · simp only [setCall, removePending, hpc]
      exact H.issued
    · simp only [setCall, removePending, hpc]
      exact H.distinct
    · intro j result hj
      simp only [setCall, removePending, hpc] at hj ⊢
      by_cases hji : j = i
      · rw [hji, Function.update_self] at hj
        refine .inr ⟨response, ?_, ?_, Option.some.inj hj⟩
        · rw [hwaiter, hji]
          exact List.mem_append_right _ List.mem_cons_self
        · rw [hji]
          exact CallPc.requestId_of_guards hguards
      · rw [Function.update_of_ne hji] at hj
        exact hmono (H.reply j result hj)
    · intro j result hj
      simp only [setCall, removePending, hpc] at hj ⊢
      exact hmono (H.result j result hj)

theorem correlated_drainPending (H : c.Correlated maximum) :
    c.drainPending.Correlated maximum := by
  have hpc (j : ℕ) : (c.drainPending.calls j).pc = (c.calls j).pc := by
    simp only [drainPending]
    split <;> rfl
  constructor
  · exact Nat.zero_le _
  · intro e he
    cases he
  · simp only [hpc]
    exact H.issued
  · simp only [hpc]
    exact H.distinct
  · intro j result hj
    simp only [hpc]
    simp only [drainPending] at hj
    split at hj
    · cases hj
      exact .inl (unserved_of_ne_serverCommand fun e he => by cases he)
    · exact H.reply j result hj
  · simp only [hpc]
    exact H.result

theorem correlated_stepOwner (H : c.Correlated maximum) {a : OwnerAction}
    (h : c.stepOwner a = some c') : c'.Correlated maximum := by
  cases a with
  | respond response =>
      simp only [stepOwner] at h
      split at h
      · cases h
        exact correlated_respond H response
      · cases h
  | drainPending =>
      simp only [stepOwner] at h
      split at h
      · cases h
        exact (correlated_drainPending H).of_eq rfl rfl rfl rfl
      · cases h
  | _ =>
      simp only [stepOwner] at h
      split at h <;> first | (cases h; exact H.of_eq rfl rfl rfl rfl) | cases h

/-- **Every step keeps the invariant of the waiters.** -/
theorem correlated_step (H : c.Correlated maximum) {a : CommandAction}
    (h : c.step maximum a = some c') : c'.Correlated maximum := by
  cases step_moves h with
  | check command encodeJson hpc => exact correlated_check H hpc command encodeJson
  | encode millis hpc => exact correlated_encode H hpc millis
  | insert hpc => exact correlated_insert H hpc
  | cloneOutbound hpc => exact correlated_cloneOutbound H hpc
  | send hpc hsend => exact correlated_send H hpc hsend
  | receive hpc hreceive => exact correlated_receive H hpc hreceive
  | timeout hpc =>
      refine H.goto (by rw [hpc]; rfl) (by rw [hpc]; rfl) fun result h => .inl ?_
      cases h
      exact unserved_of_ne_serverCommand fun e he => by cases he
  | leave hpc =>
      refine H.leaves (by rw [hpc]; rfl) rfl fun result h => ?_
      cases h
      rw [hpc]
      rfl
  | drop hguards => exact H.leaves hguards rfl fun result h => by cases h
  | owner howner => exact correlated_stepOwner H howner

/-- A response frame completes one waiter at most. -/
theorem respond_reply {response : CommandResponse} {i j : ℕ}
    (hi : ((c.respond response).calls i).reply ≠ (c.calls i).reply)
    (hj : ((c.respond response).calls j).reply ≠ (c.calls j).reply) : i = j := by
  unfold respond resolvePending at hi hj
  split at hi
  case h_1 => exact absurd rfl hi
  case h_2 k hwaiter =>
    have honly {l : ℕ} (hl : (Function.update c.calls k { c.calls k with
        reply := some response.result } l).reply ≠ (c.calls l).reply) : l = k := by
      by_contra hne
      rw [Function.update_of_ne hne] at hl
      exact hl rfl
    simp only [hwaiter] at hj
    exact (honly hi).trans (honly hj).symm

end ConnectionInner

/-- What holds of the commands of a connection. -/
structure ConnectionInner.CommandsSound (maximum : ℕ) (c : ConnectionInner) : Prop where
  /-- The map of waiters is bounded. -/
  bounded : c.pending.length ≤ maximum
  /-- Every waiter is that of a call that has neither returned nor been dropped. -/
  running : ∀ e ∈ c.pending, (c.calls e.2).pc.guards = some e.1
  /-- What the server said is returned only from a frame that names the identifier of the
  call and completed that call. -/
  answered : ∀ i id result response, (c.calls i).pc = .returned id result →
    CommandResponse.result response = result →
    ∃ frame : CommandResponse, (frame, some i) ∈ c.responses ∧ id = some frame.requestId ∧
      frame.result = result
  /-- A call that returned or was dropped has no waiter. -/
  removed : ∀ i id, ((∃ result, (c.calls i).pc = .returned (some id) result) ∨
    (c.calls i).pc = .dropped id) → ∀ e ∈ c.pending, e.1 ≠ id

theorem ConnectionInner.Correlated.commandsSound {maximum : ℕ} {c : ConnectionInner}
    (H : c.Correlated maximum) : c.CommandsSound maximum := by
  refine ⟨H.size, H.entry, ?_, ?_⟩
  · intro i id result response hpc hserved
    have hanswers := H.result i result (by rw [hpc]; rfl)
    rw [hpc] at hanswers
    rcases hanswers with hown | hframe
    · exact absurd hserved (hown response)
    · exact hframe
  · rintro i id hdone e he rfl
    have hguards := H.entry e he
    have hid : (c.calls i).pc.requestId = some e.1 ∧ (c.calls i).pc.guards = none := by
      rcases hdone with ⟨result, hpc⟩ | hpc <;> rw [hpc] <;> exact ⟨rfl, rfl⟩
    have heq : i = e.2 := H.distinct i e.2 e.1 hid.1 (CallPc.requestId_of_guards hguards)
    rw [← heq, hid.2] at hguards
    cases hguards

/-- **Commands are correlated**, in every order of calls, frames, timeouts, cancellations
and socket losses; and a response frame that is processed next completes one call at
most. -/
theorem commands_are_correlated (maximum : ℕ) (actions : List CommandAction)
    (c : ConnectionInner)
    (h : exec (ConnectionInner.step maximum) .new actions = some c) :
    c.CommandsSound maximum ∧ ∀ response c', c.stepOwner (.respond response) = some c' →
      ∀ i j, (c'.calls i).reply ≠ (c.calls i).reply → (c'.calls j).reply ≠ (c.calls j).reply →
        i = j := by
  have hcorrelated : c.Correlated maximum :=
    invariant (fun _ _ _ H hstep => ConnectionInner.correlated_step H hstep)
      (ConnectionInner.correlated_new maximum) h
  refine ⟨hcorrelated.commandsSound, fun response c' hstep i j hi hj => ?_⟩
  simp only [ConnectionInner.stepOwner] at hstep
  split at hstep
  · cases hstep
    exact ConnectionInner.respond_reply hi hj
  · cases hstep

/-- A socket becomes live. -/
def goLive (ready : ConnectionReady) : List CommandAction :=
  [.owner .connect, .owner (.ready ready), .owner .publishReady, .owner .helloSent,
    .owner .publishLive]

/-- A call hands its frame over and is acknowledged. -/
def acknowledged : List CommandAction :=
  goLive (sampleReady 1) ++ [.check 0 .presenceSet .ok, .encode 0 0, .insert 0,
    .cloneOutbound 0, .send 0,
    .owner (.respond (.commandOk ⟨requestId 0 1, "presence.set", none, none⟩)), .receive 0,
    .leave 0]

theorem commands_are_correlated_acknowledged :
    ∃ c, exec (ConnectionInner.step 1) .new acknowledged = some c ∧
      (c.calls 0).pc = .returned (some (requestId 0 1))
        (.ok ⟨requestId 0 1, "presence.set", none, none⟩) ∧ c.CommandsSound 1 := by
  refine ⟨_, rfl, rfl, (commands_are_correlated 1 acknowledged _ rfl).1⟩

end ZephyrVox.Realtime
