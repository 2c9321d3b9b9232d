import Mathlib.Data.List.Dedup
import DianService.Store.Activation

/-
  Store: the migration of the API keys and of the certificates
  (`20261026000000_api_keys_and_admin.sql`), and the two lookups that decide from then on who
  can log in and who can sign.

  A secret that several tenants share identifies none of them: the grouping leaves it out. The
  hash of a key is a parameter, and so is the text in which PostgreSQL writes a `jsonb` value
  that is not a string.
-/

namespace DianService

open Lib

/-- `api_keys->>'secret'`; `text` writes a value that is not a string. -/
def TenantRow.secret (text : Value → String) (t : TenantRow) : Option String :=
  match t.api_keys.get? "secret" with
  | none => none
  | some .null => none
  | some (.string s) => some s
  | some v => some (text v)

def Value.isEmptyObject : Value → Bool
  | .object [] => true
  | _ => false

/-- `ORDER BY expiration_date DESC, id` -/
def Certificate.Before (c d : Certificate) : Prop :=
  d.expiration_date < c.expiration_date ∨ d.expiration_date = c.expiration_date ∧ c.id ≤ d.id

instance : DecidableRel Certificate.Before :=
  fun _ _ => inferInstanceAs (Decidable (_ ∨ _))

namespace AdminDb

/-- `api_keys k JOIN tenants t ON t.id = k.tenant_id`, for one hash. -/
def keyOwners (db : AdminDb) (key_hash : String) : List TenantRow :=
  (db.api_keys.filter fun k => k.key_hash = key_hash ∧ k.revoked_at = none).flatMap fun k =>
    db.tenant_rows.filter fun t => t.id = k.tenant_id

def findByApiKeyHash (db : AdminDb) (key_hash : String) : Option TenantRow :=
  (db.keyOwners key_hash).head?

section Migration

variable (text : Value → String) (hash : String → String) (uuid : Uuid → Uuid) (now : Time)

/-- `legacy`: `WHERE COALESCE(api_keys->>'secret', '') <> ''`. -/
def legacy (db : AdminDb) : List (Uuid × String) :=
  (db.tenant_rows.filter fun t => (t.secret text).getD "" ≠ "").map fun t =>
    (t.id, (t.secret text).getD "")

/-- `unique_secrets`: `GROUP BY secret HAVING count(*) = 1`. -/
def uniqueSecrets (db : AdminDb) : List String :=
  ((db.legacy text).map (·.2)).dedup.filter fun s => ((db.legacy text).map (·.2)).count s = 1

/-- The row of a migrated key, with the defaults of the table. -/
def legacyKey (tenant_id : Uuid) (secret : String) : ApiKeyRecord where
  id := uuid tenant_id
  tenant_id := tenant_id
  name := "legacy"
  pfx := "legacy"
  key_hash := hash secret
  created_at := now
  revoked_at := none

/-- `CREATE TABLE api_keys` and the `INSERT` that fills it. -/
def insertLegacyKeys (db : AdminDb) : AdminDb :=
  { db with
    api_keys := (db.legacy text).flatMap fun l =>
      ((db.uniqueSecrets text).filter fun s => s = l.2).map (legacyKey hash uuid now l.1) }

/-- `UPDATE tenants SET api_keys = '{}' WHERE api_keys <> '{}'`; a trigger sets `updated_at`. -/
def clearSecrets (db : AdminDb) : AdminDb :=
  { db with
    tenant_rows := db.tenant_rows.map fun t =>
      if t.api_keys.isEmptyObject then t else { t with api_keys := .object [], updated_at := now } }

/-- The subquery: the certificate with which the tenant signed so far. -/
def kept (db : AdminDb) (tenant_id : Uuid) : Option Certificate :=
  ((db.certificates.filter (·.isActive tenant_id)).insertionSort Certificate.Before).head?

/-- `UPDATE certificates SET status = 'revoked' WHERE status = 'active' AND id <> (...)` -/
def revokeOthers (db : AdminDb) : AdminDb :=
  { db with
    certificates := db.certificates.map fun c =>
      if c.status = .active ∧ (db.kept c.tenant_id).any fun k => c.id ≠ k.id then
        { c with status := .revoked }
      else c }

/-- The migration, as far as it changes rows. -/
def migrateKeys (db : AdminDb) : AdminDb :=
  ((db.insertLegacyKeys text hash uuid now).clearSecrets now).revokeOthers

end Migration

end AdminDb

/-- What the migration is to do. -/
structure KeysMigrated (text : Value → String) (hash : String → String) (db db' : AdminDb) :
    Prop where
  authenticates : ∀ s id, (db'.findByApiKeyHash (hash s)).map (·.id) = some id ↔
    s ≠ "" ∧ ∃ t ∈ db.tenant_rows, t.id = id ∧ t.secret text = some s ∧
      ∀ t' ∈ db.tenant_rows, t'.secret text = some s → t' = t
  tenants : db'.tenant_rows.map (·.id) = db.tenant_rows.map (·.id)
  cleared : ∀ t ∈ db'.tenant_rows, t.api_keys = .object []
  kept : ∀ tenant_id, db.HasActive tenant_id → ∃ c ∈ db.certificates, c.isActive tenant_id ∧
    (∀ d ∈ db.certificates, d.isActive tenant_id → c.Before d) ∧
    db'.certificates.filter (·.isActive tenant_id) = [c] ∧
    db'.findActiveCertificate tenant_id = some c
  others : List.Forall₂ (fun c c' : Certificate => c' = c ∨
    c.status = .active ∧ c' = { c with status := .revoked }) db.certificates db'.certificates

/-! ## Keys -/

namespace AdminDb

section Keys

variable {text : Value → String} {hash : String → String} {uuid : Uuid → Uuid} {now : Time}
  {db : AdminDb} {s : String}

/-- The tenants that held a secret. -/
def holders (text : Value → String) (db : AdminDb) (s : String) : List TenantRow :=
  db.tenant_rows.filter fun t => t.secret text = some s

theorem legacy_filter (h : s ≠ "") :
    (db.legacy text).filter (fun l => l.2 = s) = (db.holders text s).map fun t => (t.id, s) := by
  unfold legacy holders
  rw [List.filter_map, List.filter_filter]
  have hrows : db.tenant_rows.filter (fun t => ((fun l : Uuid × String => decide (l.2 = s)) ∘
      fun t : TenantRow => (t.id, (t.secret text).getD "")) t && (t.secret text).getD "" ≠ "") =
      db.tenant_rows.filter fun t => t.secret text = some s := by
    refine List.filter_congr fun t _ => ?_
    cases hsecret : t.secret text with
    | none => simp [hsecret]
    | some x =>
        by_cases hx : x = s
        · simp [hsecret, hx, h]
        · simp [hsecret, hx]
  rw [hrows]
  refine List.map_congr_left fun t ht => ?_
  rw [of_decide_eq_true (List.mem_filter.mp ht).2]
  rfl

/-- The empty text is no secret. -/
theorem ne_empty_of_mem_legacy {l : Uuid × String} (h : l ∈ db.legacy text) : l.2 ≠ "" := by
  obtain ⟨t, ht, rfl⟩ := List.mem_map.mp h
  exact of_decide_eq_true (List.mem_filter.mp ht).2

theorem count_secrets : ((db.legacy text).map (·.2)).count s =
    ((db.legacy text).filter fun l => l.2 = s).length := by
  rw [List.count_eq_countP, List.countP_map, List.countP_eq_length_filter]
  exact congrArg List.length (List.filter_congr fun l _ => by simp [beq_eq_decide])

/-- The `JOIN ... USING (secret)` of a row of `legacy`: itself, if its secret is not shared. -/
theorem uniqueSecrets_filter (s : String) :
    (db.uniqueSecrets text).filter (fun x => x = s) =
      if ((db.legacy text).filter fun l => l.2 = s).length = 1 then [s] else [] := by
  have hnodup : (db.uniqueSecrets text).Nodup := (List.nodup_dedup _).filter _
  have hmem : s ∈ db.uniqueSecrets text ↔
      ((db.legacy text).filter fun l => l.2 = s).length = 1 := by
    unfold uniqueSecrets
    rw [List.mem_filter, List.mem_dedup, decide_eq_true_eq, count_secrets]
    constructor
    · exact fun h => h.2
    · intro h
      refine ⟨?_, h⟩
      rw [← List.count_pos_iff, count_secrets]
      omega
  have hcount : (db.uniqueSecrets text).filter (fun x => x = s) =
      List.replicate ((db.uniqueSecrets text).count s) s := by
    rw [← List.filter_eq]
  rw [hcount, hnodup.count]
  simp only [hmem]
  split <;> rfl

/-- A row of `api_keys` that a secret finds. -/
theorem mem_keys (hhash : Function.Injective hash) {k : ApiKeyRecord} :
    (k ∈ (db.migrateKeys text hash uuid now).api_keys ∧ k.key_hash = hash s ∧
        k.revoked_at = none) ↔
      s ≠ "" ∧ (db.holders text s).length = 1 ∧
        ∃ t ∈ db.holders text s, k = legacyKey hash uuid now t.id s := by
  show (k ∈ (db.legacy text).flatMap _ ∧ _) ↔ _
  simp only [List.mem_flatMap, List.mem_map]
  constructor
  · intro ⟨⟨l, hl, x, hx, hk⟩, hkey, _⟩
    subst hk
    have hxs : x = s := hhash hkey
    have hxl : x = l.2 := of_decide_eq_true (List.mem_filter.mp hx).2
    have hempty : s ≠ "" := by
      rw [← hxs, hxl]
      exact ne_empty_of_mem_legacy hl
    rw [← hxl, uniqueSecrets_filter, hxs, legacy_filter hempty, List.length_map] at hx
    split at hx
    · rename_i hone
      have hls : l ∈ (db.legacy text).filter fun l => l.2 = s :=
        List.mem_filter.mpr ⟨hl, decide_eq_true (hxl.symm.trans hxs)⟩
      rw [legacy_filter hempty] at hls
      obtain ⟨t, ht, rfl⟩ := List.mem_map.mp hls
      exact ⟨hempty, hone, t, ht, by rw [hxs]⟩
    · cases hx
  · intro ⟨hempty, hone, t, ht, hk⟩
    subst hk
    have hls : (t.id, s) ∈ (db.legacy text).filter fun l => l.2 = s := by
      rw [legacy_filter hempty]
      exact List.mem_map_of_mem ht
    refine ⟨⟨(t.id, s), List.mem_of_mem_filter hls, s, ?_, rfl⟩, rfl, rfl⟩
    rw [uniqueSecrets_filter, legacy_filter hempty, List.length_map, if_pos hone]
    exact List.mem_singleton_self s

theorem migrateKeys_ids : (db.migrateKeys text hash uuid now).tenant_rows.map (·.id) =
    db.tenant_rows.map (·.id) := by
  show ((db.tenant_rows.map _).map _) = _
  rw [List.map_map]
  refine List.map_congr_left fun t _ => ?_
  simp only [Function.comp_apply]
  split <;> rfl

theorem migrateKeys_cleared {t : TenantRow}
    (h : t ∈ (db.migrateKeys text hash uuid now).tenant_rows) : t.api_keys = .object [] := by
  obtain ⟨t, _, rfl⟩ := List.mem_map.mp h
  split
  · rename_i hempty
    unfold Value.isEmptyObject at hempty
    split at hempty
    · assumption
    · cases hempty
  · rfl

/-- The only tenant that held a secret. -/
theorem holders_length (hkey : (db.tenant_rows.map (·.id)).Nodup) {t : TenantRow} :
    (t ∈ db.holders text s ∧ (db.holders text s).length = 1) ↔
      t ∈ db.tenant_rows ∧ t.secret text = some s ∧
        ∀ t' ∈ db.tenant_rows, t'.secret text = some s → t' = t := by
  have hmem : ∀ {x : TenantRow}, x ∈ db.holders text s ↔
      x ∈ db.tenant_rows ∧ x.secret text = some s := by
    intro x
    rw [holders, List.mem_filter, decide_eq_true_eq]
  constructor
  · intro ⟨ht, hone⟩
    obtain ⟨x, hx⟩ := List.length_eq_one_iff.mp hone
    refine ⟨(hmem.mp ht).1, (hmem.mp ht).2, fun t' ht' hsecret => ?_⟩
    have hall : ∀ y ∈ db.holders text s, y = x := by simp [hx]
    rw [hall t' (hmem.mpr ⟨ht', hsecret⟩), hall t ht]
  · intro ⟨ht, hsecret, honly⟩
    refine ⟨hmem.mpr ⟨ht, hsecret⟩, ?_⟩
    have hnodup : (db.holders text s).Nodup := (List.Nodup.of_map _ hkey).filter _
    have hrep : db.holders text s = List.replicate (db.holders text s).length t :=
      List.eq_replicate_of_mem fun y hy => honly y (hmem.mp hy).1 (hmem.mp hy).2
    have hpos := List.length_pos_of_mem (hmem.mpr ⟨ht, hsecret⟩)
    rw [hrep] at hnodup
    have hle := List.nodup_replicate.mp hnodup
    omega

theorem mem_keyOwners {key_hash : String} {r : TenantRow} : r ∈ db.keyOwners key_hash ↔
    ∃ k, (k ∈ db.api_keys ∧ k.key_hash = key_hash ∧ k.revoked_at = none) ∧
      r ∈ db.tenant_rows ∧ r.id = k.tenant_id := by
  unfold keyOwners
  rw [List.mem_flatMap]
  simp only [List.mem_filter, decide_eq_true_eq]

theorem migrateKeys_authenticates (hhash : Function.Injective hash)
    (hkey : (db.tenant_rows.map (·.id)).Nodup) {id : Uuid} :
    ((db.migrateKeys text hash uuid now).findByApiKeyHash (hash s)).map (·.id) = some id ↔
      s ≠ "" ∧ ∃ t ∈ db.tenant_rows, t.id = id ∧ t.secret text = some s ∧
        ∀ t' ∈ db.tenant_rows, t'.secret text = some s → t' = t := by
  have howner : ∀ r ∈ (db.migrateKeys text hash uuid now).keyOwners (hash s), s ≠ "" ∧
      ∃ t ∈ db.tenant_rows, t.id = r.id ∧ t.secret text = some s ∧
        ∀ t' ∈ db.tenant_rows, t'.secret text = some s → t' = t := by
    intro r hr
    obtain ⟨k, hk, _, hid⟩ := mem_keyOwners.mp hr
    obtain ⟨hempty, hone, t, ht, rfl⟩ := (mem_keys hhash).mp hk
    obtain ⟨hrow, hsecret, honly⟩ := (holders_length hkey).mp ⟨ht, hone⟩
    exact ⟨hempty, t, hrow, hid.symm, hsecret, honly⟩
  constructor
  · intro h
    obtain ⟨r, hr, rfl⟩ := Option.map_eq_some_iff.mp h
    exact howner r (List.mem_of_mem_head? hr)
  · intro ⟨hempty, t, hrow, hid, hsecret, honly⟩
    obtain ⟨ht, hone⟩ := (holders_length hkey).mpr ⟨hrow, hsecret, honly⟩
    have hk : legacyKey hash uuid now t.id s ∈ (db.migrateKeys text hash uuid now).api_keys ∧ _ :=
      (mem_keys hhash).mpr ⟨hempty, hone, t, ht, rfl⟩
    -- the tenant keeps its row, so the lookup finds one
    have hids : t.id ∈ (db.migrateKeys text hash uuid now).tenant_rows.map (·.id) := by
      rw [migrateKeys_ids]
      exact List.mem_map_of_mem hrow
    obtain ⟨r, hr, hrid⟩ := List.mem_map.mp hids
    have hmem := mem_keyOwners.mpr ⟨_, hk, hr, hrid⟩
    obtain ⟨x, hx⟩ := Option.isSome_iff_exists.mp
      (List.isSome_head?.mpr (List.ne_nil_of_mem hmem))
    obtain ⟨_, t', hrow', hid', hsecret', _⟩ := howner x (List.mem_of_mem_head? hx)
    refine Option.map_eq_some_iff.mpr ⟨x, hx, ?_⟩
    rw [← hid', honly t' hrow' hsecret', hid]

end Keys

/-! ## Certificates -/

section Certificates

variable {db : AdminDb} {tenant_id : Uuid} {c k : Certificate}

theorem before_total : Std.Total Certificate.Before := by
  refine ⟨fun c d => ?_⟩
  unfold Certificate.Before
  rcases lt_trichotomy c.expiration_date d.expiration_date with h | h | h
  · exact .inr (.inl h)
  · rcases le_total c.id d.id with hid | hid
    · exact .inl (.inr ⟨h.symm, hid⟩)
    · exact .inr (.inr ⟨h, hid⟩)
  · exact .inl (.inl h)

theorem before_trans : IsTrans Certificate Certificate.Before := by
  refine ⟨fun a b c hab hbc => ?_⟩
  rcases hab with hab | ⟨hab, hid⟩ <;> rcases hbc with hbc | ⟨hbc, hid'⟩
  · exact .inl (hbc.trans hab)
  · exact .inl (hbc ▸ hab)
  · exact .inl (hab ▸ hbc)
  · exact .inr ⟨hbc.trans hab, hid.trans hid'⟩

/-- The row that the subquery takes comes before all the others it orders. -/
theorem kept_eq_some (h : db.kept tenant_id = some k) :
    k ∈ db.certificates ∧ k.isActive tenant_id ∧
      ∀ d ∈ db.certificates, d.isActive tenant_id → k.Before d := by
  have htotal := before_total
  have htrans := before_trans
  have hsorted := List.pairwise_insertionSort Certificate.Before
    (db.certificates.filter (·.isActive tenant_id))
  have hmem : ∀ x, x ∈ (db.certificates.filter (·.isActive tenant_id)).insertionSort
      Certificate.Before ↔ x ∈ db.certificates ∧ x.isActive tenant_id := by
    intro x
    rw [List.mem_insertionSort, List.mem_filter]
  unfold kept at h
  obtain ⟨rest, hrest⟩ := List.head?_eq_some_iff.mp h
  rw [hrest] at hsorted hmem
  obtain ⟨hk, hactive⟩ := (hmem k).mp List.mem_cons_self
  refine ⟨hk, hactive, fun d hd hda => ?_⟩
  cases (hmem d).mpr ⟨hd, hda⟩ with
  | head => exact (htotal.total k k).elim id id
  | tail _ hd => exact (List.pairwise_cons.mp hsorted).1 d hd

theorem kept_isSome (h : db.HasActive tenant_id) : ∃ k, db.kept tenant_id = some k := by
  obtain ⟨c, hc, hactive⟩ := h
  have hmem : c ∈ (db.certificates.filter (·.isActive tenant_id)).insertionSort
      Certificate.Before := by
    rw [List.mem_insertionSort]
    exact List.mem_filter.mpr ⟨hc, hactive⟩
  exact Option.isSome_iff_exists.mp (List.isSome_head?.mpr (List.ne_nil_of_mem hmem))

/-- Of the active rows of a tenant the update leaves the one that is kept. -/
theorem revokeOthers_filter (hkey : (db.certificates.map (·.id)).Nodup)
    (hkept : db.kept tenant_id = some k) :
    db.revokeOthers.certificates.filter (·.isActive tenant_id) = [k] := by
  obtain ⟨hk, hactive, _⟩ := kept_eq_some hkept
  have htenant := (isActive_iff.mp hactive).1
  show (db.certificates.map _).filter _ = _
  rw [List.filter_map]
  have hrows : db.certificates.filter ((fun c => c.isActive tenant_id) ∘ fun c =>
      if c.status = .active ∧ (db.kept c.tenant_id).any fun k => c.id ≠ k.id then
        { c with status := .revoked }
      else c) = db.certificates.filter fun c => c.id = k.id := by
    refine List.filter_congr fun c hc => ?_
    simp only [Function.comp_apply]
    by_cases hid : c.id = k.id
    · have hck : c = k := List.inj_on_of_nodup_map hkey hc hk hid
      subst hck
      rw [htenant, hkept, if_neg (by simp), hactive]
      simp
    · have hinactive : ¬ (if c.status = .active ∧
          (db.kept c.tenant_id).any fun k => c.id ≠ k.id then
          { c with status := .revoked } else c).isActive tenant_id := by
        intro hafter
        split at hafter
        · exact absurd (isActive_iff.mp hafter).2 (by simp)
        · rename_i hcond
          obtain ⟨hc, hstatus⟩ := isActive_iff.mp hafter
          refine hcond ⟨hstatus, ?_⟩
          rw [hc, hkept]
          simpa using hid
      rw [Bool.eq_false_iff.mpr hinactive]
      simp [hid]
  rw [hrows, filter_key_eq hkey hk, List.map_singleton]
  rw [htenant, hkept, if_neg (by simp)]

end Certificates

end AdminDb

open AdminDb in
theorem keys_migrated (text : Value → String) {hash : String → String} (uuid : Uuid → Uuid)
    (now : Time) {db : AdminDb} (hhash : Function.Injective hash)
    (htenants : (db.tenant_rows.map (·.id)).Nodup)
    (hcertificates : (db.certificates.map (·.id)).Nodup) :
    KeysMigrated text hash db (db.migrateKeys text hash uuid now) := by
  refine ⟨fun s id => migrateKeys_authenticates hhash htenants, migrateKeys_ids,
    fun t ht => migrateKeys_cleared ht, fun tenant_id hactive => ?_, ?_⟩
  · obtain ⟨k, hkept⟩ := kept_isSome hactive
    obtain ⟨hk, hk_active, hbefore⟩ := kept_eq_some hkept
    have honly : (db.migrateKeys text hash uuid now).certificates.filter (·.isActive tenant_id) =
        [k] := revokeOthers_filter hcertificates hkept
    refine ⟨k, hk, hk_active, hbefore, honly, ?_⟩
    rw [findActiveCertificate, honly]
    rfl
  · show List.Forall₂ _ db.certificates (db.certificates.map _)
    rw [List.forall₂_map_right_iff, List.forall₂_same]
    intro c _
    split
    · rename_i hcond
      exact .inr ⟨hcond.1, rfl⟩
    · exact .inl rfl

/-- Two tenants that shared a secret, one that had its own, and two active certificates that expire
    together. -/
def legacyTenants : AdminDb :=
  { Db.fresh [] with
    tenant_rows := [("shared", 1), ("shared", 2), ("abc", 3)].map fun t =>
      ⟨⟨t.2, "900123456"⟩, "ACME", "48", .object [], "mail",
        .object [("secret", .string t.1)], 0, 0⟩
    api_keys := []
    certificates := [⟨11, 1, "pki/11", "t", 100, .active⟩, ⟨10, 1, "pki/10", "t", 100, .active⟩] }

/-- A hash that gives the text "abc" its SHA-256. -/
def sampleSha (s : String) : String :=
  if s = "abc" then "ba7816bf8f01cfea414140de5dae2223b00361a396177a9cb410ff61f20015ad"
  else "x" ++ s

theorem sampleSha_injective : Function.Injective sampleSha := by
  have hne : ∀ s,
      "ba7816bf8f01cfea414140de5dae2223b00361a396177a9cb410ff61f20015ad" ≠ "x" ++ s := by
    intro s h
    have hhead := congrArg (fun t : String => t.toList.head?) h
    simp only [String.toList_append] at hhead
    revert hhead
    simp
  intro s t h
  unfold sampleSha at h
  split at h <;> split at h
  · simp_all
  · exact absurd h (hne t)
  · exact absurd h.symm (hne s)
  · simpa using h

theorem keys_migrated_legacyTenants : KeysMigrated (fun _ => "") sampleSha legacyTenants
    (legacyTenants.migrateKeys (fun _ => "") sampleSha id 5) :=
  keys_migrated (fun _ => "") id 5 sampleSha_injective (by decide) (by decide)

end DianService
