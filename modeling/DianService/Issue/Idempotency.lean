import DianService.Issue.Numbers

/-
  Issue: the idempotency keys. A key is looked up before the transaction and inserted at its
  end, after the number was checked and the document inserted. Up to the insert everything is
  as intended: one document per key, and all answers of a key name it (`Keys`). But a request
  that looked its key up before another one committed it still goes through the number check
  and the document insert first, and is refused there instead of being answered by the key.
-/

namespace DianService

open Lib

/-! ## Lookups of a key -/

def IssueOutcome.issued : IssueOutcome → IssuedDocument
  | .created issued | .replayed issued => issued

/-- The row that registers `key` for the request. -/
def Request.keyRow (r : Request) (key : IdempotencyKey) (issued : IssuedDocument) :
    IdempotencyRow :=
  ⟨r.document.tenant_id, key.key, key.request_hash, issued.document_id, issued.document_number⟩

theorem idempotency?_commit (db : Db) (r : Request) (tx : Tx) (tenant_id : Uuid) (key : String) :
    (db.commitIssue r tx).idempotency? tenant_id key =
      (db.idempotency? tenant_id key).or
        ((r.keyRows tx).find? fun k => k.tenant_id = tenant_id ∧ k.idempotency_key = key) := by
  simp [Db.idempotency?, Db.commitIssue, List.find?_append]

/-- A registered key stays registered, with the same row. -/
theorem Advance.idempotency?_kept {db db' : Db} {others : List (Request × Phase)} {r : Request}
    {now : Time} {f : Option String} {p p' : Phase} (h : Advance db others r now f p db' p') {tenant_id : Uuid}
    {key : String} {row : IdempotencyRow} (hrow : db.idempotency? tenant_id key = some row) :
    db'.idempotency? tenant_id key = some row := by
  rcases h.db_eq_or_commit with rfl | ⟨tx, -, -, -, rfl, -⟩
  · exact hrow
  · rw [idempotency?_commit, hrow]
    rfl

/-- What a request that commits registers. -/
theorem idempotency?_commit_self {db : Db} {r : Request} {tx : Tx} {key : IdempotencyKey}
    (hkey : r.document.idempotency = some key)
    (hnone : db.idempotency? r.document.tenant_id key.key = none) :
    (db.commitIssue r tx).idempotency? r.document.tenant_id key.key =
      some (r.keyRow key (r.issued tx)) := by
  rw [idempotency?_commit, hnone]
  simp [Request.keyRows, hkey, Request.keyRow, Request.issued]

theorem Db.idempotency?_row {db : Db} {tenant_id : Uuid} {key : String} {row : IdempotencyRow}
    (h : db.idempotency? tenant_id key = some row) :
    row.tenant_id = tenant_id ∧ row.idempotency_key = key := by
  simpa using List.find?_some h

/-! ## Who has a key -/

/-- The key a request inserted, in course or committed. -/
def keyClaim (x : Request × Phase) : Option (Uuid × String) :=
  match x.2 with
  | .keyInserted _ | .done (.ok (.created _)) =>
      x.1.document.idempotency.map fun key => (x.1.document.tenant_id, key.key)
  | _ => none

def ClaimsApart (x y : Request × Phase) : Prop := ∀ c, keyClaim x = some c → keyClaim y ≠ some c

theorem ClaimsApart.symm {x y : Request × Phase} (h : ClaimsApart x y) : ClaimsApart y x :=
  fun c hy hx => h c hx hy

theorem keyClaim_eq_some {x : Request × Phase} {c : Uuid × String} (h : keyClaim x = some c) :
    ∃ key, x.1.document.idempotency = some key ∧ c = (x.1.document.tenant_id, key.key) ∧
      (x.2.hasKey = true ∨ ∃ issued, x.2 = .done (.ok (.created issued))) := by
  obtain ⟨r, p⟩ := x
  unfold keyClaim at h
  split at h
  · obtain ⟨key, hkey, rfl⟩ := Option.map_eq_some_iff.mp h
    rename_i hp
    exact ⟨key, hkey, rfl, .inl (by rw [hp]; rfl)⟩
  · obtain ⟨key, hkey, rfl⟩ := Option.map_eq_some_iff.mp h
    exact ⟨key, hkey, rfl, .inr ⟨_, ‹_›⟩⟩
  · cases h

theorem keyClaim_of_hasKey {x : Request × Phase} {key : IdempotencyKey} (h : x.2.hasKey = true)
    (hkey : x.1.document.idempotency = some key) :
    keyClaim x = some (x.1.document.tenant_id, key.key) := by
  obtain ⟨r, p⟩ := x
  cases p <;> simp_all [Phase.hasKey, keyClaim]

theorem keyClaim_of_holdsKey {tenant_id : Uuid} {key : String} {x : Request × Phase}
    (h : holdsKey tenant_id key x = true) : keyClaim x = some (tenant_id, key) := by
  simp only [holdsKey, decide_eq_true_eq, Option.map_eq_some_iff] at h
  obtain ⟨hhas, rfl, key', hkey, rfl⟩ := h
  exact keyClaim_of_hasKey hhas hkey

/-- A key is claimed only when no committed row and no request in course has it. -/
theorem Advance.keyClaim_cases {db db' : Db} {others : List (Request × Phase)} {r : Request}
    {now : Time} {f : Option String} {p p' : Phase} (h : Advance db others r now f p db' p') {c : Uuid × String}
    (hc : keyClaim (r, p') = some c) :
    keyClaim (r, p) = some c ∨
      (∀ x ∈ others, holdsKey c.1 c.2 x = false) ∧ db.idempotency? c.1 c.2 = none := by
  cases h with
  | keyInserted hkey hfree hnone =>
      simp only [keyClaim, hkey, Option.map_some, Option.some.injEq] at hc
      subst hc
      exact .inr ⟨hfree, hnone⟩
  | committed hp =>
      rcases hp with ⟨rfl, hkey⟩ | rfl
      · simp [keyClaim, hkey] at hc
      · exact .inl hc
  | answered hp hkey hrow =>
      rw [replay_eq] at hc
      split_ifs at hc <;> simp [keyClaim] at hc
  | _ => simp [keyClaim] at hc

theorem Advance.rolledBack_cases {db db' : Db} {others : List (Request × Phase)} {r : Request}
    {now : Time} {f : Option String} {p p' : Phase} (h : Advance db others r now f p db' p') (hp : p' = .rolledBack) :
    db' = db ∧ ∃ key, r.document.idempotency = some key ∧
      (db.idempotency? r.document.tenant_id key.key).isSome := by
  cases h with
  | keyTaken hkey hrow => exact ⟨rfl, _, hkey, by rw [hrow]; rfl⟩
  | _ => simp at hp

/-- A request succeeds by its commit, or by the row of its key with its own fingerprint. -/
theorem Advance.ok_cases {db db' : Db} {others : List (Request × Phase)} {r : Request}
    {now : Time} {f : Option String} {p p' : Phase} (h : Advance db others r now f p db' p') {outcome : IssueOutcome}
    (hp : p' = .done (.ok outcome)) :
    (∃ tx, outcome = .created (r.issued tx) ∧ db' = db.commitIssue r tx ∧
      ∀ key, r.document.idempotency = some key → p.hasKey = true) ∨
    ∃ key, r.document.idempotency = some key ∧ ∃ issued, outcome = .replayed issued ∧ db' = db ∧
      db.idempotency? r.document.tenant_id key.key = some (r.keyRow key issued) := by
  cases h with
  | committed hown =>
      simp only [Phase.done.injEq, Except.ok.injEq] at hp
      refine .inl ⟨_, hp.symm, rfl, fun key hkey => ?_⟩
      rcases hown with ⟨-, hnone⟩ | rfl
      · simp [hnone] at hkey
      · rfl
  | @answered _ key row _ hkey hrow =>
      rw [replay_eq] at hp
      split_ifs at hp with hhash
      · simp only [Phase.done.injEq, Except.ok.injEq] at hp
        refine .inr ⟨key, hkey, row.issued, hp.symm, rfl, ?_⟩
        obtain ⟨ht, hk⟩ := Db.idempotency?_row hrow
        rw [hrow]
        exact congrArg some (by cases row; cases ht; cases hk; cases hhash; rfl)
      · simp at hp
  | _ => simp at hp

structure Keys (s : IssueState) : Prop where
  apart : s.requests.Pairwise ClaimsApart
  free : ∀ x ∈ s.requests, x.2.hasKey = true → ∀ key, x.1.document.idempotency = some key →
    s.db.idempotency? x.1.document.tenant_id key.key = none
  lost : ∀ x ∈ s.requests, x.2 = .rolledBack → ∀ key, x.1.document.idempotency = some key →
    (s.db.idempotency? x.1.document.tenant_id key.key).isSome
  answers : ∀ x ∈ s.requests, ∀ key outcome, x.1.document.idempotency = some key →
    x.2 = .done (.ok outcome) → s.db.idempotency? x.1.document.tenant_id key.key =
      some (x.1.keyRow key outcome.issued)
  origin : ∀ row ∈ s.db.idempotency_keys, ∃ x ∈ s.requests, ∃ key issued,
    x.2 = .done (.ok (.created issued)) ∧ x.1.document.idempotency = some key ∧
      row = x.1.keyRow key issued

/-- A key held by a request in course stays free: only its holder can register it. -/
theorem free_kept {s : IssueState} (hK : Keys s) {i : Nat} {now : Time} {f : Option String}
    {r : Request} {p p' : Phase} {db' : Db} (hi : s.requests[i]? = some (r, p))
    (hadv : Advance s.db (s.requests.eraseIdx i) r now f p db' p') {y : Request × Phase}
    (hy : y ∈ s.requests.eraseIdx i) (hhas : y.2.hasKey = true) {key : IdempotencyKey}
    (hkey : y.1.document.idempotency = some key) :
    db'.idempotency? y.1.document.tenant_id key.key = none := by
  have hnone := hK.free y (List.mem_of_mem_eraseIdx hy) hhas key hkey
  rcases hadv.db_eq_or_commit with rfl | ⟨tx, -, -, hown, rfl, -⟩
  · exact hnone
  · have happart := ((requests_perm hi).pairwise_iff ClaimsApart.symm).mp hK.apart
    have hyr := ((List.pairwise_cons.mp happart).1 y hy).symm
    rw [idempotency?_commit, hnone, Option.none_or, List.find?_eq_none]
    intro row hrow
    unfold Request.keyRows at hrow
    split at hrow
    · cases hrow
    · rename_i key' hkey'
      rw [List.mem_singleton.mp hrow]
      simp only [decide_eq_true_eq]
      rintro ⟨ht, hk⟩
      exact hyr _ (keyClaim_of_hasKey hhas hkey)
        (ht ▸ hk ▸ keyClaim_of_hasKey (x := (r, p)) (hown key' hkey') hkey')

theorem keys_step {s s' : IssueState} {a : IssueAction} (hK : Keys s)
    (h : issueStep s a = some s') : Keys s' := by
  cases issueStep_inv h with
  | registered hreg hs' =>
      obtain ⟨hdb, -, -⟩ := Db.addNumberingRange_ok (Db.registerNumberingRange_ok hreg).2
      rw [hs', hdb]
      exact ⟨hK.apart, hK.free, hK.lost, hK.answers, hK.origin⟩
  | refused hs' => exact hs' ▸ hK
  | submitted hs' =>
      subst hs'
      refine ⟨?_, ?_, ?_, ?_, fun row hrow => ?_⟩
      · simpa [List.pairwise_append, ClaimsApart, keyClaim] using hK.apart
      · simpa [or_imp, forall_and, Phase.hasKey] using hK.free
      · simpa [or_imp, forall_and] using hK.lost
      · simpa [or_imp, forall_and] using hK.answers
      · obtain ⟨x, hx, hrest⟩ := hK.origin row hrow
        exact ⟨x, List.mem_append_left _ hx, hrest⟩
  | @moved _ i now f r p p' ha hi hadv hs' =>
      have hx := List.mem_of_getElem? hi
      rw [hs']
      refine ⟨?_, ?_, ?_, ?_, fun row hrow => ?_⟩
      · refine pairwise_setPhase ClaimsApart.symm hi hK.apart fun hpairs y hy c hc hyc => ?_
        rcases hadv.keyClaim_cases hc with hp | ⟨hfree, hnone⟩
        · exact hpairs y hy c hp hyc
        · obtain ⟨key, hkey, rfl, hhas | ⟨issued, hdone⟩⟩ := keyClaim_eq_some hyc
          · have := hfree y hy
            simp [holdsKey, hhas, hkey] at this
          · rw [hK.answers y (List.mem_of_mem_eraseIdx hy) key _ hkey hdone] at hnone
            cases hnone
      · refine forall_setPhase hi hK.free (fun hhas key hkey => ?_)
          fun y hy _ hhas key hkey => free_kept hK hi hadv hy hhas hkey
        rcases hadv.db_eq_or_commit with hdb | ⟨_, _, _, _, _, rfl⟩
        · rw [hdb]
          rcases hadv.hasKey_cases hhas with hp | ⟨key', hkey', -, hnone⟩
          · exact hK.free (r, p) hx hp key hkey
          · obtain rfl : key' = key := by simpa [hkey'] using hkey
            exact hnone
        · cases hhas
      · refine forall_setPhase hi hK.lost (fun hp key hkey => ?_) fun y _ hy hp key hkey => ?_
        · obtain ⟨hdb, key', hkey', hsome⟩ := hadv.rolledBack_cases hp
          obtain rfl : key' = key := by simpa [hkey'] using hkey
          rw [hdb]
          exact hsome
        · obtain ⟨row, hrow⟩ := Option.isSome_iff_exists.mp (hy hp key hkey)
          exact Option.isSome_iff_exists.mpr ⟨row, hadv.idempotency?_kept hrow⟩
      · refine forall_setPhase hi hK.answers (fun key outcome hkey hp => ?_)
          fun y _ hy key outcome hkey hdone => hadv.idempotency?_kept (hy key outcome hkey hdone)
        rcases hadv.ok_cases hp with ⟨tx, rfl, hdb, hown⟩ | ⟨key', hkey', issued, rfl, hdb, hrow⟩
        · rw [hdb]
          exact idempotency?_commit_self hkey (hK.free (r, p) hx (hown key hkey) key hkey)
        · obtain rfl : key' = key := by simpa [hkey'] using hkey
          rw [hdb]
          exact hrow
      · have hold : row ∈ s.db.idempotency_keys → ∃ x ∈ (s.setPhase i s'.db r p').requests,
            ∃ key issued, x.2 = .done (.ok (.created issued)) ∧
              x.1.document.idempotency = some key ∧ row = x.1.keyRow key issued := by
          intro hrow
          obtain ⟨x, hx, key, issued, hdone, hrest⟩ := hK.origin row hrow
          exact ⟨x, done_kept hi hadv hx (by rw [hdone]; rfl), key, issued, hdone, hrest⟩
        rcases hadv.db_eq_or_commit with hdb | ⟨tx, -, -, -, hdb, rfl⟩
        · exact hold (hdb ▸ hrow)
        · rw [setPhase_db, hdb] at hrow
          rcases List.mem_append.mp hrow with hrow | hrow
          · exact hold hrow
          · unfold Request.keyRows at hrow
            split at hrow
            · cases hrow
            · exact ⟨_, List.mem_of_getElem? (setPhase_get_self hi _ _ _), _, r.issued tx, rfl,
                ‹_›, List.mem_singleton.mp hrow⟩

theorem keys {s : IssueState} (hs : issuing.Reachable s) : Keys s := by
  refine hs.invariant ?_ ?_
  · rintro s ⟨tenants, rfl⟩
    refine ⟨?_, ?_, ?_, ?_, ?_⟩ <;> simp [Db.fresh]
  · intro s a s' _ hK _ h
    exact keys_step hK h

/-! ## Requests for a registered key -/

/-- The row registered under the key of the request. -/
def Db.registered? (db : Db) (r : Request) : Option IdempotencyRow :=
  r.document.idempotency.bind fun key => db.idempotency? r.document.tenant_id key.key

/-- The key of the request is registered with the fingerprint of its own body. -/
def Db.keyMatch (db : Db) (r : Request) : Bool :=
  (db.registered? r).any fun row =>
    r.document.idempotency.any fun key => row.request_hash = key.request_hash

/-- The key of the request is registered with the fingerprint of another body. -/
def Db.keyMismatch (db : Db) (r : Request) : Bool :=
  (db.registered? r).any fun row =>
    r.document.idempotency.any fun key => row.request_hash ≠ key.request_hash

/-- The inserts of the document and of its job are not refused. -/
def insertsAccepted (db : Db) (r : Request) : Phase → Bool
  | .numbered tx => !db.documentTaken r.document tx.number
  | .documentInserted _ => (db.insertJob r.initialJob).isOk
  | _ => true

/-- `chk_counter` admits the number that `next_number` gives out. -/
def counterAccepted (r : Request) (now : Time) : Phase → Bool
  | .locked _ range =>
      match nextNumber range r.document.requested_number now with
      | .ok number => 0 ≤ number
      | .error _ => true
  | _ => true

/-- A range in force is found, still serves once locked, and `next_number` accepts the
    request. -/
def numberAccepted (db : Db) (r : Request) (now : Time) : Phase → Bool
  | .beginTx => (db.selectRange r.document now).isSome
  | .waiting tx_now range_id =>
      ((db.range? range_id).filter fun range => range.serves r.document tx_now).isSome
  | .locked _ range => (nextNumber range r.document.requested_number now).isOk
  | _ => true

/-- How a request can end once its key is registered: by the row of the key, or refused before
    it reaches the insert of its own key. -/
theorem Advance.late_cases {db db' : Db} {others : List (Request × Phase)} {r : Request}
    {now : Time} {f : Option String} {p p' : Phase} (h : Advance db others r now f p db' p')
    {key : IdempotencyKey} {row : IdempotencyRow} (hkey : r.document.idempotency = some key)
    (hrow : db.idempotency? r.document.tenant_id key.key = some row) (hfree : p.hasKey = false)
    {result : Except DomainError IssueOutcome} (hp' : p' = .done result) :
    result = replay row.request_hash row.issued key ∨
      f = none ∧ numberAccepted db r now p = false ∧ (∃ m, result = .error (.validation m)) ∨
      f = none ∧ insertsAccepted db r p = false ∨
      f = none ∧ counterAccepted r now p = false ∧ (∃ m, result = .error (.database m)) ∨
      ∃ m, f = some m ∧ result = .error (.database m) := by
  cases h with
  | answered hp hkey' hrow' =>
      rw [hkey] at hkey'
      cases hkey'
      rw [hrow] at hrow'
      cases hrow'
      exact .inl (Phase.done.inj hp').symm
  | unserved hnone =>
      exact .inr (.inl ⟨rfl, by simp [numberAccepted, hnone], _, (Phase.done.inj hp').symm⟩)
  | unservedRow hnone =>
      exact .inr (.inl ⟨rfl, by simp [numberAccepted, hnone], _, (Phase.done.inj hp').symm⟩)
  | refused hn =>
      obtain ⟨m, rfl⟩ := nextNumber_error hn
      exact .inr (.inl ⟨rfl, by simp [numberAccepted, hn, Except.isOk, Except.toBool], m,
        (Phase.done.inj hp').symm⟩)
  | counterRefused hn hneg =>
      exact .inr (.inr (.inr (.inl ⟨rfl, by simp [counterAccepted, hn, hneg], _,
        (Phase.done.inj hp').symm⟩)))
  | documentExists htaken => exact .inr (.inr (.inl ⟨rfl, by simp [insertsAccepted, htaken]⟩))
  | jobRefused he =>
      exact .inr (.inr (.inl ⟨rfl, by simp [insertsAccepted, he, Except.isOk, Except.toBool]⟩))
  | committed hp =>
      rcases hp with ⟨-, hnone⟩ | rfl
      · simp [hkey] at hnone
      · cases hfree
  | vanished hkey' hnone =>
      rw [hkey] at hkey'
      cases hkey'
      simp [hrow] at hnone
  | failed m => exact .inr (.inr (.inr (.inr ⟨m, rfl, (Phase.done.inj hp').symm⟩)))
  | _ => cases hp'

/-! ## Twins -/

/-- Two requests with the same tenant, key and body. -/
structure Twin (r r' : Request) : Prop where
  keyed : r.document.idempotency.isSome
  idempotency : r.document.idempotency = r'.document.idempotency
  tenant_id : r.document.tenant_id = r'.document.tenant_id
  document_type : r.document.document_type = r'.document.document_type
  pfx : r.document.pfx = r'.document.pfx
  requested_number : r.document.requested_number = r'.document.requested_number
  payload : r.document.payload = r'.document.payload

/-- A request that ends in this step, after a twin of it was answered `Created`, is answered
    `Replayed` with the document of the twin, unless its call to the database failed. -/
def TwinsReplayed (s s' : IssueState) : Prop :=
  ∀ (i j : Nat) r r' p issued result,
    s.requests[i]? = some (r, .done (.ok (.created issued))) → s.requests[j]? = some (r', p) →
    p.isDone = false → s'.requests[j]? = some (r', .done result) → Twin r r' →
    (∀ m, result ≠ .error (.database m)) → result = .ok (.replayed issued)

/-- A request whose key was meanwhile registered for its body is not refused a range, the number
    or the insert of its document. -/
def twinAccepted (s : IssueState) : IssueAction → Bool
  | .advance i now => (s.requests[i]?).all fun (r, p) =>
      !s.db.keyMatch r || (numberAccepted s.db r now p && insertsAccepted s.db r p)
  | _ => true

/-- While the steps of a run are `twinAccepted`, twins are replayed. -/
theorem twins_replayed {s s' : IssueState} {a : IssueAction}
    (hs : issuing.ReachableBy (fun s a => twinAccepted s a = true) s)
    (hc : twinAccepted s a = true) (h : issuing.step s a = some s') : TwinsReplayed s s' := by
  intro i j r r' p issued result hi hj hp hj' htwin hdb
  have hK := keys hs.reachable
  obtain ⟨key, hkey⟩ := Option.isSome_iff_exists.mp htwin.keyed
  have hkey' : r'.document.idempotency = some key := htwin.idempotency ▸ hkey
  have hrow := hK.answers _ (List.mem_of_getElem? hi) key _ hkey rfl
  rw [htwin.tenant_id] at hrow
  have hmatch : s.db.keyMatch r' = true := by
    simp [Db.keyMatch, Db.registered?, hkey', hrow, Request.keyRow]
  have hmem := List.mem_of_getElem? hj
  have hfree : p.hasKey = false := by
    by_contra hhas
    rw [hK.free _ hmem (by simpa using hhas) key hkey'] at hrow
    cases hrow
  obtain ⟨now, f, ha, hadv⟩ := ended_inv h hj hp hj'
  have haccepted : f = none → numberAccepted s.db r' now p = true ∧
      insertsAccepted s.db r' p = true := by
    rintro rfl
    rcases ha with ⟨rfl, -⟩ | ⟨m, -, hf⟩
    · simpa [twinAccepted, hj, hmatch] using hc
    · cases hf
  rcases hadv.late_cases hkey' hrow hfree rfl with
    hres | ⟨hf, hn, -⟩ | ⟨hf, hins⟩ | ⟨-, -, m, hres⟩ | ⟨m, -, hres⟩
  · rw [hres, replay_eq]
    simp [Request.keyRow, IdempotencyRow.issued, IssueOutcome.issued]
  · rw [(haccepted hf).1] at hn
    cases hn
  · rw [(haccepted hf).2] at hins
    cases hins
  · exact absurd hres (hdb m)
  · exact absurd hres (hdb m)

/-! ### Two runs -/

def sampleTwin (id : Uuid) (requested_number : Option Int) : Request :=
  sampleRequest id requested_number (some ⟨"venta-1", sampleHash 'a' (by decide)⟩)

/-- Two twins look their key up, then the first one commits; the second follows up to its
    `n`-th statement. -/
def twinsRace (requested_number : Option Int) (n : Nat) : List IssueAction :=
  [.register 7 1 sampleRange, .submit (sampleTwin 10 requested_number),
    .submit (sampleTwin 11 requested_number), .advance 0 5, .advance 1 5] ++
  List.replicate 7 (.advance 0 5) ++ List.replicate n (.advance 1 5)

set_option maxRecDepth 10000 in
theorem twinsRace_number_runs : (issuing.run sampleStart (twinsRace (some 1) 2)).isSome = true := by
  decide

/-- Both twins ask for number 1: the second one is told that the next number is 2. -/
theorem twins_not_replayed :
    ¬ ∀ s s' a, issuing.Reachable s → issuing.step s a = some s' → TwinsReplayed s s' := by
  intro h
  have hreach := Machine.Reachable.get sampleStart_start twinsRace_number_runs
  have hres := h _ _ (.advance 1 5) hreach rfl 0 1 (sampleTwin 10 (some 1)) (sampleTwin 11 (some 1))
    _ _ _ rfl rfl rfl rfl ⟨rfl, rfl, rfl, rfl, rfl, rfl, rfl⟩ (fun m hm => by cases hm)
  cases hres

set_option maxRecDepth 10000 in
theorem twinsRace_runs : (issuing.run sampleStart (twinsRace none 6)).isSome = true := by decide

set_option maxRecDepth 10000 in
/-- Without a requested number the second one meets the key and is replayed. -/
theorem twins_replayed_unnumbered :
    ∃ s', issuing.step ((issuing.run sampleStart (twinsRace none 6)).get twinsRace_runs)
        (.advance 1 5) = some s' ∧
      TwinsReplayed ((issuing.run sampleStart (twinsRace none 6)).get twinsRace_runs) s' :=
  ⟨_, rfl, twins_replayed (a := .advance 1 5)
    (Machine.ReachableBy.get sampleStart_start (by decide) _) (by decide) rfl⟩

/-! ## One document per key -/

/-- At most one request with a given tenant and key is answered `Created`. -/
def OneDocumentPerKey (s : IssueState) : Prop :=
  ∀ (i j : Nat) r r' key key' issued issued',
    s.requests[i]? = some (r, .done (.ok (.created issued))) →
    s.requests[j]? = some (r', .done (.ok (.created issued'))) →
    r.document.idempotency = some key → r'.document.idempotency = some key' →
    r.document.tenant_id = r'.document.tenant_id → key.key = key'.key → i = j

/-- All `Created` and `Replayed` answers for a tenant and a key name the same document. -/
def SameAnswer (s : IssueState) : Prop :=
  ∀ x ∈ s.requests, ∀ y ∈ s.requests, ∀ key key' outcome outcome',
    x.2 = .done (.ok outcome) → y.2 = .done (.ok outcome') →
    x.1.document.idempotency = some key → y.1.document.idempotency = some key' →
    x.1.document.tenant_id = y.1.document.tenant_id → key.key = key'.key →
    outcome.issued = outcome'.issued

/-- A request whose key is registered for another body changes nothing, and if it ends it is
    with a `Validation` error. -/
def MismatchRefused (s : IssueState) (a : IssueAction) (s' : IssueState) : Prop :=
  ∀ (i : Nat) r p, a.request? = some i → s.requests[i]? = some (r, p) →
    s.db.keyMismatch r = true →
    s'.db = s.db ∧ ∀ result, s'.requests[i]? = some (r, .done result) →
      ∃ m, result = .error (.validation m)

/-- A request that ends without success leaves no key behind, and a key that no request in
    course has inserted and none has committed lets a request through, whatever other requests
    with it failed before. -/
def NotReserved (s : IssueState) (a : IssueAction) (s' : IssueState) : Prop :=
  (∀ (i : Nat) r e, a.request? = some i → s'.requests[i]? = some (r, .done (.error e)) →
    s'.db = s.db ∧ keyClaim (r, .done (.error e)) = none) ∧
  ∀ r key now others, r.document.idempotency = some key → others ⊆ s.requests →
    (∀ x ∈ s.requests, keyClaim x ≠ some (r.document.tenant_id, key.key)) →
    advance s.db others r now .lookup = some (s.db, .beginTx) ∧
    ∀ tx, advance s.db others r now (.jobInserted tx) = some (s.db, .keyInserted tx)

theorem oneDocumentPerKey {s : IssueState} (hK : Keys s) : OneDocumentPerKey s := by
  intro i j r r' key key' issued issued' hi hj hkey hkey' ht hk
  by_contra hij
  have hapart : ClaimsApart (r, .done (.ok (.created issued)))
      (r', .done (.ok (.created issued'))) :=
    (List.pairwise_cons.mp (((requests_perm hi).pairwise_iff ClaimsApart.symm).mp hK.apart)).1 _
      (mem_others hij hj)
  exact hapart _ (by simp only [keyClaim, hkey]; rfl) (by simp [keyClaim, hkey', ht, hk])

theorem sameAnswer {s : IssueState} (hK : Keys s) : SameAnswer s := by
  intro x hx y hy key key' outcome outcome' hdx hdy hkx hky ht hk
  have hrow := hK.answers x hx key outcome hkx hdx
  rw [ht, hk, hK.answers y hy key' outcome' hky hdy] at hrow
  simp only [Request.keyRow, Option.some.injEq, IdempotencyRow.mk.injEq] at hrow
  obtain ⟨-, -, -, hid, hnumber⟩ := hrow
  generalize outcome.issued = a at *
  generalize outcome'.issued = b at *
  cases a
  cases b
  simp_all

/-- A key that nobody has inserted is not registered. -/
theorem Keys.unclaimed {s : IssueState} (hK : Keys s) {tenant_id : Uuid} {key : String}
    (h : ∀ x ∈ s.requests, keyClaim x ≠ some (tenant_id, key)) :
    s.db.idempotency? tenant_id key = none := by
  cases hrow : s.db.idempotency? tenant_id key with
  | none => rfl
  | some row =>
      obtain ⟨x, hx, key', issued, hdone, hkey, rfl⟩ := hK.origin row (List.mem_of_find?_eq_some hrow)
      obtain ⟨ht, hk⟩ := Db.idempotency?_row hrow
      refine absurd ?_ (h x hx)
      simp only [Request.keyRow] at ht hk
      simp [keyClaim, hdone, hkey, ht, hk]

theorem notReserved {s s' : IssueState} {a : IssueAction} (hK : Keys s)
    (h : issueStep s a = some s') : NotReserved s a s' := by
  refine ⟨fun i r e ha hi => ⟨?_, rfl⟩, fun r key now others hkey hsub hfree => ?_⟩
  · refine unchanged_unless_created ha h fun r' issued => ?_
    rw [hi]
    simp
  · have hnone := hK.unclaimed hfree
    have hheld : others.any (holdsKey r.document.tenant_id key.key) = false := by
      rw [List.any_eq_false]
      intro x hx hheld
      exact hfree x (hsub hx) (keyClaim_of_holdsKey hheld)
    constructor
    · simp [advance, hkey, replayOr_eq, hnone]
    · intro tx
      simp [advance, hkey, hheld, hnone]

/-- The counter and the inserts of a request whose key was meanwhile registered for another body
    are not refused, and its calls to the database do not fail. -/
def mismatchAccepted (s : IssueState) : IssueAction → Bool
  | .advance i now => (s.requests[i]?).all fun (r, p) =>
      !s.db.keyMismatch r || (counterAccepted r now p && insertsAccepted s.db r p)
  | .fail i _ => (s.requests[i]?).all fun (r, _) => !s.db.keyMismatch r
  | _ => true

theorem keyMismatch_eq_true {db : Db} {r : Request} (h : db.keyMismatch r = true) :
    ∃ key row, r.document.idempotency = some key ∧
      db.idempotency? r.document.tenant_id key.key = some row ∧
      row.request_hash ≠ key.request_hash := by
  simp only [Db.keyMismatch, Db.registered?, Option.any_eq_true, Option.bind_eq_some_iff,
    decide_eq_true_eq] at h
  obtain ⟨row, ⟨key, hkey, hrow⟩, key', hkey', hne⟩ := h
  obtain rfl : key = key' := by simpa [hkey] using hkey'
  exact ⟨key, row, hkey, hrow, hne⟩

theorem mismatchRefused {s s' : IssueState} {a : IssueAction} (hK : Keys s)
    (hc : mismatchAccepted s a = true) (h : issueStep s a = some s') : MismatchRefused s a s' := by
  intro i r p ha hi hmis
  obtain ⟨key, row, hkey, hrow, hne⟩ := keyMismatch_eq_true hmis
  have hfree : p.hasKey = false := by
    by_contra hhas
    rw [hK.free _ (List.mem_of_getElem? hi) (by simpa using hhas) key hkey] at hrow
    cases hrow
  cases issueStep_inv h with
  | registered => cases ha
  | refused => cases ha
  | submitted => cases ha
  | @moved _ j now f q ph ph' hb hj hadv hs' =>
      obtain rfl : j = i := by
        rcases hb with ⟨rfl, -⟩ | ⟨m, rfl, -⟩ <;> exact Option.some.inj ha
      rw [hi] at hj
      cases hj
      refine ⟨?_, fun result hdone => ?_⟩
      · rcases hadv.db_eq_or_commit with hdb | ⟨tx, -, -, hown, -, -⟩
        · exact hdb
        · rw [hown key hkey] at hfree
          cases hfree
      · rw [hs', setPhase_get_self hi] at hdone
        cases hdone
        rcases hadv.late_cases hkey hrow hfree rfl with
          hres | ⟨-, -, hres⟩ | ⟨rfl, hins⟩ | ⟨rfl, hcounter, -⟩ | ⟨m, rfl, -⟩
        · rw [hres, replay_eq, if_neg hne]
          exact ⟨_, rfl⟩
        · exact hres
        · rcases hb with ⟨rfl, -⟩ | ⟨_, _, hf⟩
          · simp [mismatchAccepted, hi, hmis, hins] at hc
          · cases hf
        · rcases hb with ⟨rfl, -⟩ | ⟨_, _, hf⟩
          · simp [mismatchAccepted, hi, hmis, hcounter] at hc
          · cases hf
        · rcases hb with ⟨_, hf⟩ | ⟨_, rfl, _⟩
          · cases hf
          · simp [mismatchAccepted, hi, hmis] at hc

/-! ## Other tenants -/

/-- The rows as they would be if only `tenant_id` used idempotency keys. -/
def Db.keysOf (tenant_id : Uuid) (db : Db) : Db :=
  { db with
    idempotency_keys := db.idempotency_keys.filter fun k => k.tenant_id = tenant_id }

/-- A request as it would be if only `tenant_id` used idempotency keys. -/
def keyOf (tenant_id : Uuid) (x : Request × Phase) : Request × Phase :=
  if x.1.document.tenant_id = tenant_id then x
  else ({ x.1 with document := { x.1.document with idempotency := none } }, x.2)

/-- Every statement of a request does what it would do if no other tenant used keys. -/
def TenantIsolated (s : IssueState) : Prop :=
  ∀ (i : Nat) r p now, s.requests[i]? = some (r, p) →
    advance (s.db.keysOf r.document.tenant_id)
        ((s.requests.eraseIdx i).map (keyOf r.document.tenant_id)) r now p =
      (advance s.db (s.requests.eraseIdx i) r now p).map fun x =>
        (x.1.keysOf r.document.tenant_id, x.2)

section Isolation

variable (tenant_id : Uuid) (db : Db)

theorem idempotency?_keysOf (key : String) :
    (db.keysOf tenant_id).idempotency? tenant_id key = db.idempotency? tenant_id key := by
  simp only [Db.idempotency?, Db.keysOf, List.find?_filter]
  congr 1
  funext k
  by_cases h : k.tenant_id = tenant_id <;> simp [h]

theorem commitIssue_keysOf (r : Request) (tx : Tx) (h : r.document.tenant_id = tenant_id) :
    (db.keysOf tenant_id).commitIssue r tx = (db.commitIssue r tx).keysOf tenant_id := by
  unfold Db.commitIssue Db.keysOf Request.keyRows
  cases r.document.idempotency <;> simp [h]

theorem insertJob_keysOf (job : NewJob) :
    (db.keysOf tenant_id).insertJob job = (db.insertJob job).map (Db.keysOf tenant_id) := by
  unfold Db.insertJob
  rw [apply_ite (Except.map (Db.keysOf tenant_id)), apply_ite (Except.map (Db.keysOf tenant_id))]
  rfl

theorem any_keyOf {held : Request × Phase → Bool} (h : ∀ x, held (keyOf tenant_id x) = held x)
    (others : List (Request × Phase)) :
    (others.map (keyOf tenant_id)).any held = others.any held := by
  simp only [List.any_map]
  congr 1
  funext x
  exact h x

theorem holdsRange_keyOf (id : Uuid) (x : Request × Phase) :
    holdsRange id (keyOf tenant_id x) = holdsRange id x := by
  unfold keyOf
  split_ifs <;> rfl

theorem holdsDocument_keyOf (document : NewOutboundDocument) (number : Int)
    (x : Request × Phase) :
    holdsDocument document number (keyOf tenant_id x) = holdsDocument document number x := by
  unfold keyOf
  split_ifs <;> rfl

theorem holdsJob_keyOf (job_id : Uuid) (x : Request × Phase) :
    holdsJob job_id (keyOf tenant_id x) = holdsJob job_id x := by
  unfold keyOf
  split_ifs <;> rfl

theorem holdsKey_keyOf (key : String) (x : Request × Phase) :
    holdsKey tenant_id key (keyOf tenant_id x) = holdsKey tenant_id key x := by
  unfold keyOf
  split_ifs with h
  · rfl
  · simp [holdsKey, h]

end Isolation

theorem advance_keysOf (db : Db) (others : List (Request × Phase)) (r : Request) (now : Time)
    (p : Phase) :
    advance (db.keysOf r.document.tenant_id) (others.map (keyOf r.document.tenant_id)) r now p =
      (advance db others r now p).map fun x => (x.1.keysOf r.document.tenant_id, x.2) := by
  cases p with
  | lookup =>
      simp only [advance, replayOr_eq, idempotency?_keysOf]
      cases r.document.idempotency <;> rfl
  | beginTx =>
      simp only [advance]
      have hsel : (db.keysOf r.document.tenant_id).selectRange r.document now =
        db.selectRange r.document now := rfl
      rw [hsel]
      split <;> rfl
  | waiting tx_now range_id =>
      simp only [advance, any_keyOf _ (holdsRange_keyOf _ _)]
      have hrow : (db.keysOf r.document.tenant_id).range? range_id = db.range? range_id := rfl
      rw [hrow]
      split_ifs
      · rfl
      · split <;> rfl
  | locked tx_now range =>
      simp only [advance]
      split
      · rfl
      · split_ifs <;> rfl
  | numbered tx =>
      simp only [advance, any_keyOf _ (holdsDocument_keyOf _ _ _)]
      have htaken : (db.keysOf r.document.tenant_id).documentTaken r.document tx.number =
        db.documentTaken r.document tx.number := rfl
      rw [htaken]
      split_ifs <;> rfl
  | documentInserted tx =>
      simp only [advance, any_keyOf _ (holdsJob_keyOf _ _), insertJob_keysOf]
      split_ifs
      · rfl
      · cases db.insertJob r.initialJob <;> rfl
  | jobInserted tx =>
      simp only [advance, idempotency?_keysOf, any_keyOf _ (holdsKey_keyOf _ _),
        commitIssue_keysOf _ _ _ _ rfl]
      cases r.document.idempotency with
      | none => rfl
      | some key =>
          simp only
          split_ifs <;> rfl
  | keyInserted tx =>
      simp only [advance, commitIssue_keysOf _ _ _ _ rfl]
      rfl
  | rolledBack =>
      simp only [advance, replayOr_eq, idempotency?_keysOf]
      cases r.document.idempotency <;> rfl
  | done result => rfl

/-! ## The keys over a run -/

/-- While the steps of a run are `mismatchAccepted`, the idempotency keys do all they promise.
    Only `MismatchRefused` needs it. -/
theorem idempotency_keys_hold {s : IssueState}
    (hs : issuing.ReachableBy (fun s a => mismatchAccepted s a = true) s) :
    OneDocumentPerKey s ∧ SameAnswer s ∧ TenantIsolated s ∧
      ∀ a s', mismatchAccepted s a = true → issuing.step s a = some s' →
        MismatchRefused s a s' ∧ NotReserved s a s' := by
  have hK := keys hs.reachable
  exact ⟨oneDocumentPerKey hK, sameAnswer hK, fun i r p now _ => advance_keysOf _ _ r now p,
    fun a s' hc h => ⟨mismatchRefused hK hc h, notReserved hK h⟩⟩

/-! ### Two runs -/

def sampleOther (id : Uuid) : Request :=
  sampleRequest id none (some ⟨"venta-1", sampleHash 'b' (by decide)⟩)

/-- The resolution of prefix FE is renewed at 1000 and starts again at number 1. FE1 is issued
    on the old one; then two requests with one key and two bodies: the first commits FE2 on the
    old resolution, the second looked its key up before that and got FE1 on the new one. -/
def renewedRange : List IssueAction :=
  [.register 7 1 sampleRange,
    .register 8 1 { sampleRange with valid_date_from := 1000, valid_date_to := 2000 },
    .submit (sampleRequest 9 none none)] ++ List.replicate 7 (.advance 0 5) ++
  [.submit (sampleTwin 10 none), .submit (sampleOther 11)] ++
  List.replicate 6 (.advance 1 990) ++ [.advance 2 1500] ++ List.replicate 2 (.advance 1 1500) ++
  List.replicate 3 (.advance 2 1501)

set_option maxRecDepth 10000 in
theorem renewedRange_runs : (issuing.run sampleStart renewedRange).isSome = true := by decide

set_option maxRecDepth 10000 in
/-- The request with the other body is told that FE1 exists, not that its key is in use. -/
theorem mismatch_not_refused :
    ¬ ∀ s a s', issuing.Reachable s → issuing.step s a = some s' → MismatchRefused s a s' := by
  intro h
  have hreach := Machine.Reachable.get sampleStart_start renewedRange_runs
  have hmis := h _ (.advance 2 1501) _ hreach rfl 2 (sampleOther 11) _ rfl rfl (by decide)
  obtain ⟨m, hm⟩ := hmis.2 _ rfl
  cases hm

/-- Two requests with one key and two bodies on one range, up to the rollback of the second. -/
def mismatchRace : List IssueAction :=
  [.register 7 1 sampleRange, .submit (sampleTwin 10 none), .submit (sampleOther 11),
    .advance 0 5, .advance 1 5] ++ List.replicate 7 (.advance 0 5) ++
  List.replicate 6 (.advance 1 5)

set_option maxRecDepth 10000 in
theorem mismatchRace_runs : (issuing.run sampleStart mismatchRace).isSome = true := by decide

set_option maxRecDepth 10000 in
/-- The second one is refused on account of its key. -/
theorem idempotency_keys_hold_race :
    ∃ s', issuing.step ((issuing.run sampleStart mismatchRace).get mismatchRace_runs)
        (.advance 1 5) = some s' ∧
      MismatchRefused ((issuing.run sampleStart mismatchRace).get mismatchRace_runs)
        (.advance 1 5) s' := by
  have hs := Machine.ReachableBy.get (C := fun s a => mismatchAccepted s a = true)
    sampleStart_start (by decide) mismatchRace_runs
  exact ⟨_, rfl, ((idempotency_keys_hold hs).2.2.2 (.advance 1 5) _ (by decide) rfl).1⟩

end DianService
