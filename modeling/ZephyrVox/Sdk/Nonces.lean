import ZephyrVox.Lib.Counters
import ZephyrVox.Sdk.Sessions

/-!
# Nonces over the life of a client

A worker counts its transport sequences from one and never repeats one. The key
it seals under may outlive it: a reused join takes the key from the cache, and
the counter of the new worker starts over.

## Main definitions

* `NoncesUnique` — no two seals under one cipher have the same nonce.
* `StartsFresh` — a join starts no worker under a cipher that another one has.
* `nonces_unique` — in a run of such joins nonces are unique.
-/

namespace ZephyrVox.Sdk

open Realtime Voice

namespace Client

variable {V K : Type} {env : Env V K} {s t u : Client V K} {i : Task} {q : Pc V} {a : Action V}

/-- No two datagrams sealed under one cipher carry the same nonce. -/
def NoncesUnique (s : Client V K) : Prop :=
  s.history.sealed.Pairwise fun x y => x.cipher = y.cipher → x.nonce ≠ y.nonce

/-- An action that starts no worker under the client-to-server cipher of another
worker of the client. -/
def StartsFresh (env : Env V K) (s : Client V K) (a : Action V) : Prop :=
  ∀ i input call b config reuse codec keys, a = .resume i input →
    s.tasks.pc i = .join call (.connecting b config reuse) →
    (PacketCodec.fromConfig env.crypto config s.keyCache).2 = .ok codec →
    codec.keys = some keys →
    ∀ worker ∈ s.workers, ∀ keys', worker.codec.keys = some keys' → keys'.c2s ≠ keys.c2s

/-- The counter of a worker, under the cipher it seals with. -/
def owner (counter : PacketCodec K × ℕ) : Counters.Owner K :=
  ⟨counter.1.keys.map DirectionKeys.c2s, counter.2⟩

/-- The counters of all workers. -/
def owners (s : Client V K) : List (Counters.Owner K) :=
  (s.workers.map Worker.counter).map owner

/-- Every seal is the use of a sequence by a worker, and no use is repeated. -/
def Sequenced (owners : List (Counters.Owner K)) (sealed : List (Sealed K)) : Prop :=
  (∀ o ∈ owners, o.next ≤ U64_MAX) ∧
    ∃ log : List (K × ℕ), sealed = log.map (fun e => ⟨e.1, nonceFor e.2⟩) ∧
      (∀ e ∈ log, e.2 < U64_MAX) ∧ Counters.Fresh owners log

/-- Seals of different uses differ. -/
theorem Sequenced.unique {owners : List (Counters.Owner K)} {sealed : List (Sealed K)}
    (h : Sequenced owners sealed) :
    sealed.Pairwise fun x y => x.cipher = y.cipher → x.nonce ≠ y.nonce := by
  obtain ⟨-, log, rfl, hlt, hfresh⟩ := h
  rw [List.pairwise_map]
  refine hfresh.nodup.imp_of_mem ?_
  rintro ⟨k, n⟩ ⟨k', m⟩ hn hm hne hk hnonce
  have hwidth : U64_MAX < 2 ^ 64 := by decide
  have hnm : n = m := nonceFor_injOn (Nat.lt_trans (hlt _ hn) hwidth)
    (Nat.lt_trans (hlt _ hm) hwidth) hnonce
  exact hne (Prod.ext hk hnm)

/-- A worker that starts has used nothing. -/
theorem Sequenced.start {owners : List (Counters.Owner K)} {sealed : List (Sealed K)}
    (h : Sequenced owners sealed) {codec : PacketCodec K}
    (hkey : ∀ o ∈ owners, ∀ keys, codec.keys = some keys → o.key ≠ some keys.c2s) :
    Sequenced (owners ++ [owner (Worker.counter (Worker.new codec))]) sealed := by
  obtain ⟨hle, log, hlog, hlt, hfresh⟩ := h
  refine ⟨?_, log, hlog, hlt, hfresh.add ?_⟩
  · intro o ho
    rcases List.mem_append.mp ho with ho | ho
    · exact hle o ho
    · obtain rfl := List.mem_singleton.mp ho
      show 1 ≤ U64_MAX
      decide
  · intro o ho k hk
    obtain ⟨keys, hkeys, rfl⟩ := Option.map_eq_some_iff.mp hk
    exact hkey o ho keys hkeys

/-- One turn of a worker. -/
theorem Sequenced.turn {workers : List (Worker K)} {log : List (Sealed K)} {w : ℕ}
    {worker next : Worker K} {sealed : List (Sealed K)}
    (h : Sequenced ((workers.map Worker.counter).map owner) log)
    (hworker : workers[w]? = some worker) (hadvances : worker.Advances next sealed) :
    Sequenced (((workers.set w next).map Worker.counter).map owner) (log ++ sealed) := by
  obtain ⟨hle, uses, rfl, hlt, hfresh⟩ := h
  have hget : ((workers.map Worker.counter).map owner)[w]? =
      some (owner (Worker.counter worker)) := by simp [hworker]
  rw [List.map_set, List.map_set]
  obtain ⟨hcodec, ⟨hsame, rfl⟩ | ⟨hmax, hnext, rfl⟩⟩ := hadvances
  · have hcounter : Worker.counter next = Worker.counter worker := by
      rw [Worker.counter, Worker.counter, hcodec, hsame]
    obtain ⟨hlength, hget'⟩ := List.getElem?_eq_some_iff.mp hget
    rw [hcounter, ← hget', List.set_getElem_self, List.append_nil]
    exact ⟨hle, uses, rfl, hlt, hfresh⟩
  · have howner : owner (Worker.counter next) =
        { owner (Worker.counter worker) with next := worker.transportSequence + 1 } := by
      rw [Worker.counter, hcodec, hnext]
      rfl
    have hbound : worker.transportSequence ≤ U64_MAX := hle _ (List.mem_of_getElem? hget)
    rw [howner]
    have hle' : ∀ o ∈ ((workers.map Worker.counter).map owner).set w
        { owner (Worker.counter worker) with next := worker.transportSequence + 1 },
        o.next ≤ U64_MAX := by
      intro o ho
      rcases List.mem_or_eq_of_mem_set ho with ho | rfl
      · exact hle o ho
      · show worker.transportSequence + 1 ≤ U64_MAX
        omega
    unfold PacketCodec.seals
    split
    · cases hkeys : worker.codec.keys with
      | none => exact ⟨hle', uses, by simp, hlt, hfresh.skip hget⟩
      | some keys =>
          refine ⟨hle', uses ++ [(keys.c2s, worker.transportSequence)], by simp, ?_, ?_⟩
          · intro e he
            rcases List.mem_append.mp he with he | he
            · exact hlt e he
            · obtain rfl := List.mem_singleton.mp he
              show worker.transportSequence < U64_MAX
              omega
          · exact hfresh.use hget (by simp [owner, Worker.counter, hkeys])
    · exact ⟨hle', uses, by simp, hlt, hfresh.skip hget⟩

/-- A move of a task starts one worker or none, and seals nothing. -/
theorem Effect.counters (h : Effect env s t i q) :
    t.history.sealed = s.history.sealed ∧
      (t.workers.map Worker.counter = s.workers.map Worker.counter ∨
        ∃ call b config reuse codec,
          s.tasks.pc i = .join call (.connecting b config reuse) ∧
          q = .join call (.starting b s.workers.length reuse) ∧
          (PacketCodec.fromConfig env.crypto config s.keyCache).2 = .ok codec ∧
          WorkersAsked { s with workers := s.workers ++ [Worker.new codec] } t ∧
          t.workers.map Worker.counter =
            s.workers.map Worker.counter ++ [Worker.counter (Worker.new codec)]) := by
  have kept {u : Client V K} (h : Calm u t) (hu : u.workers = s.workers)
      (hsealed : u.history.sealed = s.history.sealed) :
      t.history.sealed = s.history.sealed ∧
        t.workers.map Worker.counter = s.workers.map Worker.counter :=
    ⟨h.sealed.trans hsealed, by rw [h.counters, hu]⟩
  cases h with
  | starts call b config reuse codec hp hq hcodec h =>
      exact ⟨h.sealed, .inr ⟨call, b, config, reuse, codec, hp, hq, hcodec, h.asked,
        by simp [h.counters]⟩⟩
  | binds call b cached conn hp hq hconn hlive hg h =>
      have hissued : (s.issued call).workers = s.workers ∧
          (s.issued call).history.sealed = s.history.sealed := by
        unfold issued
        split <;> exact ⟨rfl, rfl⟩
      obtain ⟨hs, ho⟩ := kept h hissued.1 hissued.2
      exact ⟨hs, .inl ho⟩
  | handles g r conn event hi hp hconn hevent hg h hq =>
      have hrelayed : ((s.forgetIntent r event).relay event).workers = s.workers ∧
          ((s.forgetIntent r event).relay event).history.sealed = s.history.sealed := by
        unfold Client.relay forgetIntent
        split <;> exact ⟨rfl, rfl⟩
      obtain ⟨hs, ho⟩ := kept h hrelayed.1 hrelayed.2
      exact ⟨hs, .inl ho⟩
  | calm h | exits _ _ _ _ _ _ h | makes _ _ _ _ _ h | rejects _ _ _ h | locks _ _ _ h
  | reads _ _ _ _ _ _ h | skips _ _ _ _ _ _ _ _ _ h | passes _ _ _ _ _ _ _ _ h
  | takes _ _ _ _ _ _ _ _ _ _ _ _ h | installs _ _ _ _ _ _ _ _ _ _ h
  | installsFirst _ _ _ _ _ _ _ _ _ h | records _ _ _ _ _ _ _ _ h | leaves _ _ _ _ _ h
  | putsBack _ _ _ _ _ h | shuts _ _ h | shutsVoice _ _ h | shutsControl _ _ _ h
  | clears _ _ _ h =>
      obtain ⟨hs, ho⟩ := kept h rfl rfl
      exact ⟨hs, .inl ho⟩

/-- **Uses stay unrepeated** in every step that starts workers under fresh ciphers. -/
theorem sequenced_step (hs : Sequenced s.owners s.history.sealed) (ha : s.StartsFresh env a)
    (h : s.step env a = some t) : Sequenced t.owners t.history.sealed := by
  have moved {i : Task} {q : Pc V} (h : Effect env s t i q)
      (hfresh : ∀ call b config reuse codec keys,
        s.tasks.pc i = .join call (.connecting b config reuse) →
        (PacketCodec.fromConfig env.crypto config s.keyCache).2 = .ok codec →
        codec.keys = some keys →
        ∀ worker ∈ s.workers, ∀ keys', worker.codec.keys = some keys' → keys'.c2s ≠ keys.c2s) :
      Sequenced t.owners t.history.sealed := by
    obtain ⟨hsealed, hkept | ⟨call, b, config, reuse, codec, hp, -, hcodec, -, hstarted⟩⟩ :=
      h.counters
    · rw [hsealed, owners, hkept]
      exact hs
    · rw [hsealed, owners, hstarted, List.map_append]
      refine hs.start ?_
      intro o ho keys hkeys hkey
      obtain ⟨counter, hcounter, rfl⟩ := List.mem_map.mp ho
      obtain ⟨worker, hworker, rfl⟩ := List.mem_map.mp hcounter
      obtain ⟨keys', hkeys', heq⟩ := Option.map_eq_some_iff.mp hkey
      exact hfresh call b config reuse codec keys hp hcodec hkeys worker hworker keys' hkeys' heq
  cases step_cases h with
  | call n c q result hp hm =>
      refine moved hm.effect ?_
      intro call b config reuse codec keys hp'
      rw [hp] at hp'
      cases hp'
  | resume i input q hp hm =>
      refine moved hm.effect ?_
      intro call b config reuse codec keys hp'
      exact ha i input call b config reuse codec keys rfl hp'
  | install i input c conn hp hconn hstopped ht => subst ht; exact hs
  | abort i input hp ht => subst ht; exact hs
  | engine c input conn next hconn hstep ht => subst ht; exact hs
  | close c ht => subst ht; exact hs
  | worker w input worker next sealed keyCache hworker hstep ht =>
      subst ht
      exact hs.turn hworker (Worker.step_spec hstep).2

/-- **AES-GCM nonces are unique** in every run whose joins start workers under
fresh ciphers. -/
theorem nonces_unique (env : Env V K) (autoRejoinVoice : Bool) (policy : ReconnectPolicy)
    (schedule : List (Action V))
    (hfresh : Transition.Along (step env) (StartsFresh env) (new autoRejoinVoice policy) schedule)
    (h : Transition.exec (step env) (new autoRejoinVoice policy) schedule = some t) :
    t.NoncesUnique := by
  have hnew : Sequenced (new autoRejoinVoice policy : Client V K).owners
      (new autoRejoinVoice policy : Client V K).history.sealed :=
    ⟨(fun _ h => by cases h), [], rfl, (fun _ h => by cases h), Counters.fresh_nil⟩
  have hstep : ∀ s a t, Sequenced s.owners s.history.sealed → StartsFresh env s a →
      step env s a = some t → Sequenced t.owners t.history.sealed :=
    fun _ _ _ hs ha h => sequenced_step hs ha h
  exact (Transition.invariant_along hstep hnew hfresh h).unique

/-- A test that guarantees that a join starts its worker under a fresh cipher. -/
def checkStartsFresh [DecidableEq K] (env : Env V K) (s : Client V K) : Action V → Bool
  | .resume i _ =>
      match s.tasks.pc i with
      | .join _ (.connecting _ config _) =>
          match (PacketCodec.fromConfig env.crypto config s.keyCache).2 with
          | .ok codec => codec.keys.all fun keys => s.workers.all fun worker =>
              worker.codec.keys.all fun keys' => keys'.c2s ≠ keys.c2s
          | .error _ => true
      | _ => true
  | _ => true

theorem startsFresh_of_check [DecidableEq K] (h : s.checkStartsFresh env a = true) :
    s.StartsFresh env a := by
  rintro i input call b config reuse codec keys rfl hp hcodec hkeys worker hworker keys' hkeys'
  simp only [checkStartsFresh, hp, hcodec, hkeys, Option.all_some, List.all_eq_true] at h
  have hworkers := h worker hworker
  rw [hkeys', Option.all_some] at hworkers
  simpa using hworkers

/-- The host joins two new sessions, one after the other. -/
def createdSchedule : Schedule := joinedSchedule ++ hostJoining 0 1 1 true

theorem nonces_unique_created :
    ∃ t, Transition.exec (step sampleClientEnv) sampleClient createdSchedule = some t ∧
      t.history.sealed.length = 2 ∧ t.NoncesUnique := by
  have hrun : (Transition.exec (step sampleClientEnv) sampleClient createdSchedule).any (fun t =>
      t.history.sealed.length = 2) = true := by decide
  obtain ⟨t, ht, hsealed⟩ := (Option.any_eq_true _ _).mp hrun
  refine ⟨t, ht, of_decide_eq_true hsealed, nonces_unique sampleClientEnv true ⟨true, none⟩
    createdSchedule ?_ ht⟩
  exact Transition.along_of_check (fun _ _ => startsFresh_of_check) (by decide)

/-- The host joins a new session; its next join reuses the session without a key. -/
def reusedSchedule : Schedule := joinedSchedule ++ hostJoining 0 1 0 false

/-- Both workers seal their first heartbeat under the cached key and sequence one. -/
theorem reusedSchedule_repeats_nonce :
    ¬ ∀ (autoRejoinVoice : Bool) (policy : ReconnectPolicy) (schedule : Schedule)
      (t : Client (Option VoiceAuthority) SampleCipher),
      Transition.exec (step sampleClientEnv) (new autoRejoinVoice policy) schedule = some t →
      t.NoncesUnique := by
  intro h
  have hrun : (Transition.exec (step sampleClientEnv) sampleClient reusedSchedule).any (fun t =>
      ¬ t.history.sealed.Pairwise fun x y => x.cipher = y.cipher → x.nonce ≠ y.nonce) = true := by
    decide
  obtain ⟨t, ht, hrepeats⟩ := (Option.any_eq_true _ _).mp hrun
  exact of_decide_eq_true hrepeats (h true ⟨true, none⟩ reusedSchedule t ht)

end Client

end ZephyrVox.Sdk
