/-
  Chain/Access.lean --- whose key opens what, over whole runs.

  A user's queries open with one key: that of the user's last message that created or
  set one, in whatever mode it was sent and whatever was sent by anyone since.  A key
  that the contract created is answered to the user, and is that key.
-/
import SefiStakepool.Chain.Control
import SefiStakepool.Chain.Privacy

set_option autoImplicit false

namespace SefiStakepool.Chain

open SefiStakepool.Foundation
open SefiStakepool.Contract

variable {X : Crates}

/-- The key that a message creates or sets for `u`, in a pool with the given seed. -/
def Tx.keyFor (X : Crates) (prngSeed : List UInt8) (u : HumanAddr) (tx : Tx) :
    Option ViewingKey :=
  if tx.env.message.sender = u then
    match tx.msg with
    | .createViewingKey entropy _ => some (.new X tx.env prngSeed entropy.toUTF8.toList)
    | .setViewingKey key _ => some ⟨key⟩
    | _ => none
  else none

/-- The last key that was created or set for `u`. -/
def lastKey (X : Crates) (prngSeed : List UInt8) (u : HumanAddr) (txs : List Tx) :
    Option ViewingKey :=
  (txs.filterMap (Tx.keyFor X prngSeed u)).getLast?

/-! ## One message -/

section
variable {w : World X} {tx : Tx} {s : Storage X} {response : HandleResponse} {u : HumanAddr}

/-- Only messages about keys write them, and only the sender's. -/
theorem lookup_of_effect (h : Effect tx.querier w.storage tx.env tx.msg s response) :
    s.viewingKeys.lookup u = ((tx.keyFor X w.storage.config.prngSeed u).map
      (ViewingKey.toHashed X)).or (w.storage.viewingKeys.lookup u) := by
  obtain ⟨env, msg, querier⟩ := tx
  dsimp only at h
  have hother (hnone : Tx.keyFor X w.storage.config.prngSeed u ⟨env, msg, querier⟩ = none) :
      w.storage.viewingKeys.lookup u =
        ((Tx.keyFor X w.storage.config.prngSeed u ⟨env, msg, querier⟩).map
          (ViewingKey.toHashed X)).or (w.storage.viewingKeys.lookup u) := by
    rw [hnone]
    rfl
  unfold Tx.keyFor at hother ⊢
  cases h with
  | viewingKey msg_eq =>
      rename_i data key
      by_cases hu : env.message.sender = u
      · subst hu
        rcases msg_eq with ⟨entropy, padding, rfl, rfl⟩ | ⟨padding, rfl⟩ <;> simp
      · simp only [if_neg hu, Option.map_none, Option.none_or]
        exact AList.lookup_insert_ne (Ne.symm hu)
  | reconfigure running isAdmin change =>
      rcases change with ⟨_, rfl, _⟩ | ⟨_, rfl, _⟩ | ⟨_, rfl, _⟩ <;> exact hother (ite_self _)
  | _ => exact hother (ite_self _)

/-- They are handled the same way in both modes. -/
theorem handle_createViewingKey {querier : Querier} {s : Storage X} {env : Env}
    {entropy : String} {padding : Option String} :
    handle querier s env (.createViewingKey entropy padding) =
      createViewingKey s env entropy := by
  cases hmode : s.config.isStopped with
  | false => exact handle_of_running hmode
  | true => exact handle_of_stopped hmode

theorem handle_setViewingKey {querier : Querier} {s : Storage X} {env : Env} {key : String}
    {padding : Option String} :
    handle querier s env (.setViewingKey key padding) = setViewingKey s env key := by
  cases hmode : s.config.isStopped with
  | false => exact handle_of_running hmode
  | true => exact handle_of_stopped hmode

/-- They are never refused. -/
theorem exec_isSome_of_keyFor {prngSeed : List UInt8} (w : World X)
    (h : tx.keyFor X prngSeed u ≠ none) : (w.exec tx).isSome := by
  obtain ⟨env, msg, querier⟩ := tx
  unfold Tx.keyFor at h
  cases msg with
  | createViewingKey entropy padding => exact exec_isSome_of_quiet handle_createViewingKey rfl
  | setViewingKey key padding => exact exec_isSome_of_quiet handle_setViewingKey rfl
  | _ => exact absurd (ite_self _) h

theorem lookup_step (w : World X) (tx : Tx) (u : HumanAddr) :
    (w.step tx).storage.viewingKeys.lookup u =
      ((tx.keyFor X w.storage.config.prngSeed u).map (ViewingKey.toHashed X)).or
        (w.storage.viewingKeys.lookup u) := by
  rcases World.step_cases w tx with ⟨response, hexec⟩ | ⟨hexec, hstep⟩
  · exact lookup_of_effect (World.exec_effect hexec)
  · have hnone : tx.keyFor X w.storage.config.prngSeed u = none := by
      by_contra hkey
      have hsome := exec_isSome_of_keyFor w hkey
      rw [hexec] at hsome
      cases hsome
    rw [hstep, hnone]
    rfl

end

/-! ## A run -/

theorem lookup_run (w : World X) (txs : List Tx) (u : HumanAddr) :
    (w.run txs).storage.viewingKeys.lookup u =
      ((lastKey X w.storage.config.prngSeed u txs).map (ViewingKey.toHashed X)).or
        (w.storage.viewingKeys.lookup u) := by
  have hrun : (w.run txs).storage.viewingKeys.lookup u =
      (txs.filterMap fun tx => (tx.keyFor X w.storage.config.prngSeed u).map
        (ViewingKey.toHashed X)).getLast?.or (w.storage.viewingKeys.lookup u) :=
    @run_last_write (World X) Tx World.step _
      (fun w' => w'.storage.config.prngSeed = w.storage.config.prngSeed)
      (fun w' => w'.storage.viewingKeys.lookup u) _
      (fun w' tx h => (sameSetup_of_run w' [tx]).prngSeed.trans h)
      (fun w' tx h => by rw [lookup_step, h]) w rfl txs
  rw [hrun, lastKey, ← List.getLast?_map, List.map_filterMap]

theorem init_viewingKeys {env : Env} {msg : InitMsg} {s : Storage X} {response : InitResponse}
    (h : init X env msg = .ok (s, response)) : s.viewingKeys = ∅ := by
  simp only [init, bind_eq_ok] at h
  obtain ⟨_, _, h⟩ := h
  cases h
  rfl

/-- After any run from a new pool, an authenticated query about `u` is passed on to what
answers it exactly when its key is, as far as the hash tells, the one that the last message
of `u` about keys created or set; nobody else's messages matter, and neither does the mode.
Nothing answers `Rewards`: behind the right key it panics. -/
theorem query_of_run {w : World X} (hw : w.Initial) (txs : List Tx) {u : HumanAddr}
    {key : String} {msg : QueryMsg} (hparams : msg.getValidationParams = .ok (u, ⟨key⟩))
    (querier : Querier) :
    (∀ last, lastKey X w.storage.config.prngSeed u txs = some last →
        last.toHashed X = ViewingKey.toHashed X ⟨key⟩ →
      query querier (w.run txs).storage msg = authenticatedAnswer (w.run txs).storage msg) ∧
    ((∀ last, lastKey X w.storage.config.prngSeed u txs = some last →
        last.toHashed X ≠ ViewingKey.toHashed X ⟨key⟩) →
      query querier (w.run txs).storage msg = .ok viewingKeyError) := by
  have hnone : w.storage.viewingKeys.lookup u = none := by
    obtain ⟨⟨env, msg, response, hinit⟩, _⟩ := hw
    rw [init_viewingKeys hinit]
    rfl
  have hstored := lookup_run w txs u
  rw [hnone, Option.or_none] at hstored
  constructor
  · intro last hlast hhash
    refine query_of_key hparams ?_
    rw [hstored, hlast, Option.map_some, hhash]
  · intro hno
    refine query_of_not_opens hparams fun hopens => ?_
    rw [Opens, hstored, Option.map_eq_some_iff] at hopens
    obtain ⟨last, hlast, hhash⟩ := hopens
    exact hno last hlast hhash

/-- Batman sets a key, and another one while the contract is stopped. -/
def rekeyedRun : List Tx :=
  keyedRun ++ [.at 20 0 admin .stopContract, .at 30 0 superman (.setViewingKey "third" none),
    .at 40 0 batman (.setViewingKey "second" none)]

theorem query_of_run_rekeyedRun :
    query (fun _ _ => .ok ⟨⟨0⟩⟩) (testPool.run rekeyedRun).storage (.balance batman "second") =
      authenticatedAnswer (testPool.run rekeyedRun).storage (.balance batman "second") ∧
    query (fun _ _ => .ok ⟨⟨0⟩⟩) (testPool.run rekeyedRun).storage (.balance batman "key") =
      .ok viewingKeyError := by
  have hlast : lastKey reference testPool.storage.config.prngSeed batman rekeyedRun =
    some ⟨"second"⟩ := rfl
  constructor
  · exact (query_of_run testPool_initial rekeyedRun rfl _).1 _ hlast rfl
  · refine (query_of_run testPool_initial rekeyedRun rfl _).2 ?_
    intro last hsome
    obtain rfl : (⟨"second"⟩ : ViewingKey) = last := Option.some.inj (hlast.symm.trans hsome)
    decide +kernel

/-- A created key is answered, and opens the queries about its owner until the owner
sends another message about keys, whatever else is sent and stored on the way. -/
theorem created_key_opens (w : World X) {tx : Tx} {entropy : String} {padding : Option String}
    (hmsg : tx.msg = .createViewingKey entropy padding) {txs : List Tx}
    (hquiet : ∀ later ∈ txs,
      later.keyFor X w.storage.config.prngSeed tx.env.message.sender = none) :
    ∃ w' response key, w.exec tx = some (w', response) ∧
      response.data = .createViewingKey key ∧
      ∀ querier msg, msg.getValidationParams = .ok (tx.env.message.sender, key) →
        query querier (w'.run txs).storage msg =
          authenticatedAnswer (w'.run txs).storage msg := by
  have hkey : tx.keyFor X w.storage.config.prngSeed tx.env.message.sender =
      some (.new X tx.env w.storage.config.prngSeed entropy.toUTF8.toList) := by
    unfold Tx.keyFor
    rw [hmsg]
    simp
  have hsent : tx.keyFor X w.storage.config.prngSeed tx.env.message.sender ≠ none := by
    rw [hkey]
    simp
  obtain ⟨⟨w', response⟩, hexec⟩ :=
    Option.isSome_iff_exists.mp (exec_isSome_of_keyFor w hsent)
  have hdata : response.data = .createViewingKey
      (.new X tx.env w.storage.config.prngSeed entropy.toUTF8.toList) := by
    obtain ⟨s, hhandle, _⟩ := World.exec_eq_some.mp hexec
    rw [hmsg, handle_createViewingKey] at hhandle
    cases hhandle
    rfl
  have hstored := lookup_run w (tx :: txs) tx.env.message.sender
  have hlast : lastKey X w.storage.config.prngSeed tx.env.message.sender (tx :: txs) =
      some (.new X tx.env w.storage.config.prngSeed entropy.toUTF8.toList) := by
    have hnone : txs.filterMap (Tx.keyFor X w.storage.config.prngSeed tx.env.message.sender) =
        [] := List.filterMap_eq_nil_iff.mpr hquiet
    rw [lastKey, List.filterMap_cons_some hkey, hnone]
    rfl
  rw [hlast] at hstored
  have hrun : w.run (tx :: txs) = w'.run txs := by
    unfold World.run
    rw [run_cons, World.step_of_exec hexec]
  rw [hrun] at hstored
  exact ⟨w', response, _, hexec, hdata, fun querier msg hparams => query_of_key hparams hstored⟩

/-- Batman creates a key, which outlives a stop and the keys of others. -/
theorem created_key_opens_rekeyed :
    ∃ w' response key, testPool.exec (.at 5 0 batman (.createViewingKey "entropy" none)) =
        some (w', response) ∧ response.data = .createViewingKey key ∧
      query (fun _ _ => .ok ⟨⟨0⟩⟩) (w'.run [.at 20 0 admin .stopContract,
          .at 30 0 superman (.setViewingKey "third" none)]).storage (.balance batman key.value) =
        authenticatedAnswer (w'.run [.at 20 0 admin .stopContract,
          .at 30 0 superman (.setViewingKey "third" none)]).storage
          (.balance batman key.value) := by
  have hmsg : (Tx.at 5 0 batman (.createViewingKey "entropy" none)).msg =
    .createViewingKey "entropy" none := rfl
  have hquiet : ∀ later ∈ [Tx.at 20 0 admin .stopContract,
      .at 30 0 superman (.setViewingKey "third" none)],
      later.keyFor reference testPool.storage.config.prngSeed batman = none := by
    simp only [List.forall_mem_cons]
    exact ⟨rfl, rfl, by simp⟩
  obtain ⟨w', response, key, hexec, hdata, hopens⟩ := created_key_opens testPool hmsg hquiet
  exact ⟨w', response, key, hexec, hdata, hopens _ _ rfl⟩

end SefiStakepool.Chain
