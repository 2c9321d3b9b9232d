import DianService.Lib.Rows

/-
  Leases without fencing: rows that workers claim for a time, and updates that name a row but not
  the claim they are made under.

  `leases k` is the lease the row `k` is under, if any; `claims` are the claims that workers still
  hold. A claim is superseded once its lease has expired and its row is no longer under it.
  `Inv` (an unexpired claim has its row, and two claims on one row differ in their expiry) is
  kept by everything but an update made under a superseded claim; so it is the rule for systems
  that keep such updates from happening by a time limit.
-/

namespace DianService.Lib

structure Lease (τ : Type) where
  lease_until : Int
  stamp : τ
  deriving DecidableEq

structure Claim (κ τ : Type) where
  row : κ
  lease : Lease τ

namespace Claim

variable {κ τ : Type}

/-- The row is under the lease of the claim. -/
def Holds (leases : κ → Option (Lease τ)) (c : Claim κ τ) : Prop := leases c.row = some c.lease

def Unexpired (now : Int) (c : Claim κ τ) : Prop := now ≤ c.lease.lease_until

/-- The lease has expired, and the row has been claimed again or settled since. -/
def Superseded (now : Int) (leases : κ → Option (Lease τ)) (c : Claim κ τ) : Prop :=
  ¬ c.Unexpired now ∧ ¬ c.Holds leases

instance [DecidableEq τ] (now : Int) (leases : κ → Option (Lease τ)) (c : Claim κ τ) :
    Decidable (c.Superseded now leases) :=
  inferInstanceAs (Decidable (¬ now ≤ c.lease.lease_until ∧ ¬ leases c.row = some c.lease))

end Claim

namespace Lease

variable {κ τ : Type} {now : Int} {leases leases' : κ → Option (Lease τ)}
  {claims claims' l₁ l₂ : List (Claim κ τ)} {c : Claim κ τ}

structure Inv (now : Int) (leases : κ → Option (Lease τ)) (claims : List (Claim κ τ)) : Prop where
  held : ∀ c ∈ claims, c.Unexpired now → c.Holds leases
  apart : claims.Pairwise fun a b => a.row = b.row → a.lease.lease_until ≠ b.lease.lease_until

namespace Inv

theorem nil : Inv now leases [] := ⟨by simp, .nil⟩

/-- Claims may be given up. -/
theorem sublist (h : Inv now leases claims) (hs : claims'.Sublist claims) :
    Inv now leases claims' :=
  ⟨fun c hc => h.held c (hs.subset hc), h.apart.sublist hs⟩

theorem tick {now' : Int} (h : Inv now leases claims) (hnow : now ≤ now') :
    Inv now' leases claims :=
  ⟨fun c hc hlive => h.held c hc (Int.le_trans hnow hlive), h.apart⟩

/-- A row may change in any way while it is under no unexpired lease. -/
theorem change (h : Inv now leases claims)
    (hrows : ∀ k, leases' k ≠ leases k → ∀ l, leases k = some l → l.lease_until < now) :
    Inv now leases' claims where
  held := by
    intro c hc hlive
    have hholds := h.held c hc hlive
    by_contra hnot
    have hne : leases' c.row ≠ leases c.row := fun e => hnot (e.trans hholds)
    have hexpired := hrows c.row hne c.lease hholds
    unfold Claim.Unexpired at hlive
    omega
  apart := h.apart

/-- New claims, on rows that were under no unexpired lease. -/
theorem claim {new : List (Claim κ τ)} (h : Inv now leases claims)
    (hready : ∀ c ∈ new, ∀ l, leases c.row = some l → l.lease_until < now)
    (hholds : ∀ c ∈ new, c.Holds leases') (hlive : ∀ c ∈ new, c.Unexpired now)
    (hdistinct : new.Pairwise fun a b => a.row ≠ b.row)
    (hrows : ∀ k, leases' k ≠ leases k → ∀ l, leases k = some l → l.lease_until < now) :
    Inv now leases' (claims ++ new) where
  held := by
    intro c hc hunexpired
    rcases List.mem_append.mp hc with hc | hc
    · exact (h.change hrows).held c hc hunexpired
    · exact hholds c hc
  apart := by
    rw [List.pairwise_append]
    refine ⟨h.apart, hdistinct.imp fun hne e => absurd e hne, ?_⟩
    intro a ha b hb hrow
    -- an older claim on the row has expired
    have hnot : ¬ a.Unexpired now := fun ha' => by
      have := hready b hb a.lease (hrow ▸ h.held a ha ha')
      unfold Claim.Unexpired at ha'
      omega
    have hb' := hlive b hb
    unfold Claim.Unexpired at hnot hb'
    omega

theorem holds_of_not_superseded (h : Inv now leases claims) (hc : c ∈ claims)
    (hs : ¬ c.Superseded now leases) : c.Holds leases := by
  by_contra hnot
  exact hs ⟨fun hlive => hnot (h.held c hc hlive), hnot⟩

/-- Of the claims on one row, one holds it at most. -/
theorem exclusive (h : Inv now leases claims) :
    claims.Pairwise fun a b => a.row = b.row → ¬ (a.Holds leases ∧ b.Holds leases) := by
  refine h.apart.imp fun hne hrow hboth => ?_
  have hsame : some _ = some _ := (hboth.1.symm.trans (congrArg leases hrow)).trans hboth.2
  exact hne hrow (congrArg Lease.lease_until (Option.some.inj hsame))

/-- A holder settles its row and gives up its claim. -/
theorem settle (h : Inv now leases (l₁ ++ c :: l₂)) (hc : c.Holds leases)
    (hrows : ∀ k, leases' k ≠ leases k → k = c.row) : Inv now leases' (l₁ ++ l₂) := by
  have hrest : Inv now leases (l₁ ++ l₂) := h.sublist
    (List.Sublist.append_left (List.sublist_cons_self c l₂) l₁)
  refine ⟨fun d hd hlive => ?_, hrest.apart⟩
  have hd' := hrest.held d hd hlive
  by_contra hnot
  have hrow : d.row = c.row := hrows d.row fun e => hnot (e.trans hd')
  -- two holders of one row
  have hexcl := h.exclusive
  rw [List.pairwise_append, List.pairwise_cons] at hexcl
  rcases List.mem_append.mp hd with hd | hd
  · exact hexcl.2.2 d hd c List.mem_cons_self hrow ⟨hd', hc⟩
  · exact hexcl.2.1.1 d hd hrow.symm ⟨hc, hd'⟩

/-- No row has two unexpired claims. -/
theorem unexpired_exclusive (h : Inv now leases claims) :
    claims.Pairwise fun a b => a.row = b.row → ¬ (a.Unexpired now ∧ b.Unexpired now) := by
  refine h.exclusive.imp_of_mem fun ha hb hexcl hrow hboth => ?_
  exact hexcl hrow ⟨h.held _ ha hboth.1, h.held _ hb hboth.2⟩

end Inv

/-! ## Tables of rows -/

section Table

variable {ρ : Type} [DecidableEq κ] {key : ρ → κ} {lease? : ρ → Option (Lease τ)}
  {rows rows' : List ρ} {f : ρ → ρ} {k : κ}

/-- The leases of the rows of a table. -/
def ofRows (key : ρ → κ) (lease? : ρ → Option (Lease τ)) (rows : List ρ) (k : κ) :
    Option (Lease τ) :=
  (rows.find? fun r => key r = k).bind lease?

theorem ofRows_append (h : ∀ r ∈ rows', lease? r = none) :
    ofRows key lease? (rows ++ rows') = ofRows key lease? rows := by
  funext k
  unfold ofRows
  rw [List.find?_append]
  cases hfind : rows.find? fun r => key r = k with
  | some r => rfl
  | none =>
      cases hnew : rows'.find? fun r => key r = k with
      | none => rfl
      | some r => exact h r (List.mem_of_find?_eq_some hnew)

theorem ofRows_map (hf : ∀ r, key (f r) = key r) :
    ofRows key lease? (rows.map f) k = ofRows key (fun r => lease? (f r)) rows k := by
  have hfind : (rows.map f).find? (fun r => key r = k) = (rows.find? fun r => key r = k).map f := by
    rw [List.find?_map]
    congr 2
    funext r
    simp [hf r]
  unfold ofRows
  rw [hfind]
  cases rows.find? fun r => key r = k <;> rfl

/-- Where an update of rows changes a lease, it changes the lease of a row. -/
theorem ofRows_map_ne (hf : ∀ r, key (f r) = key r)
    (hne : ofRows key lease? (rows.map f) k ≠ ofRows key lease? rows k) :
    ∃ r ∈ rows, key r = k ∧ ofRows key lease? rows k = lease? r ∧ lease? (f r) ≠ lease? r := by
  rw [ofRows_map hf] at hne
  unfold ofRows at hne ⊢
  cases hr : rows.find? fun r => key r = k with
  | none => simp [hr] at hne
  | some r =>
      rw [hr] at hne
      exact ⟨r, List.mem_of_find?_eq_some hr, by simpa using List.find?_some hr, rfl, hne⟩

/-- An update that grants no lease. -/
theorem ofRows_of_map (hf : ∀ r, key (f r) = key r)
    (hle : ∀ r ∈ rows, lease? (f r) = lease? r ∨ lease? (f r) = none) {l : Lease τ}
    (h : ofRows key lease? (rows.map f) k = some l) : ofRows key lease? rows k = some l := by
  rw [ofRows_map hf] at h
  unfold ofRows at h ⊢
  cases hr : rows.find? fun r => key r = k with
  | none => simp [hr] at h
  | some r =>
      rw [hr] at h
      have hl : lease? (f r) = some l := h
      rcases hle r (List.mem_of_find?_eq_some hr) with hsame | hnone
      · rwa [Option.bind_some, ← hsame]
      · rw [hnone] at hl
        cases hl

theorem exists_of_ofRows {l : Lease τ} (h : ofRows key lease? rows k = some l) :
    ∃ r ∈ rows, key r = k ∧ lease? r = some l := by
  obtain ⟨r, hfind, hr⟩ := Option.bind_eq_some_iff.mp h
  exact ⟨r, List.mem_of_find?_eq_some hfind, by simpa using List.find?_some hfind, hr⟩

theorem ofRows_eq (h : (rows.map key).Nodup) {r : ρ} (hr : r ∈ rows) :
    ofRows key lease? rows (key r) = lease? r := by
  unfold ofRows
  rw [find?_key_eq h hr]
  rfl

end Table

end Lease

end DianService.Lib
