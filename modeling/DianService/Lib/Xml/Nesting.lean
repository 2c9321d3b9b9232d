import DianService.Lib.Xml.Tree

/-
  Streams of events as trees. A reader matches every end tag with the start tag that is open, and
  may stop while some are. A stream with none open at its end is that of a forest.
-/

namespace DianService.Lib.Xml

variable {τ τ' ν : Type}

/-! ## Nesting -/

section Nesting

variable [DecidableEq τ]

/-- The tags that are open after the events, innermost first; none where an end tag closes another
    tag than the innermost, or nothing. -/
def openAfter : (stack : List τ) → List (Event τ ν) → Option (List τ)
  | stack, [] => some stack
  | stack, .start t :: es => openAfter (t :: stack) es
  | t :: stack, .close u :: es => if t = u then openAfter stack es else none
  | [], .close _ :: _ => none
  | stack, .empty _ :: es => openAfter stack es
  | stack, .leaf _ :: es => openAfter stack es

theorem openAfter_events (f : Forest τ ν) (stack : List τ) (es : List (Event τ ν)) :
    openAfter stack (f.events ++ es) = openAfter stack es := by
  induction f generalizing stack es with
  | nil => rfl
  | leaf l rest ih => exact ih stack es
  | empty t rest ih => exact ih stack es
  | node t kids rest ihk ihr =>
    rw [Forest.events, List.cons_append, List.append_assoc, openAfter, ihk, List.cons_append,
      openAfter, if_pos rfl, ihr]

theorem openAfter_prefix {es fs : List (Event τ ν)} {stack : List τ}
    (h : (openAfter stack (es ++ fs)).isSome) : (openAfter stack es).isSome := by
  induction es generalizing stack with
  | nil => rfl
  | cons e es ih =>
    cases e with
    | start t =>
      rw [List.cons_append, openAfter] at h
      exact ih h
    | close t =>
      cases stack with
      | nil => exact h
      | cons u stack =>
        rw [List.cons_append, openAfter] at h
        rw [openAfter]
        split at h
        · rename_i hu
          rw [if_pos hu]
          exact ih h
        · cases h
    | empty t | leaf l =>
      rw [List.cons_append, openAfter] at h
      exact ih h

/-- What is open was open before, or was opened. -/
theorem mem_of_openAfter {es : List (Event τ ν)} {stack stack' : List τ}
    (h : openAfter stack es = some stack') {t : τ} (ht : t ∈ stack') :
    t ∈ stack ∨ .start t ∈ es := by
  induction es generalizing stack with
  | nil =>
    cases h
    exact Or.inl ht
  | cons e es ih =>
    cases e with
    | start u =>
      have hin : openAfter (u :: stack) es = some stack' := h
      rcases ih hin with hmem | hstart
      · rcases List.mem_cons.mp hmem with rfl | hmem
        · exact Or.inr List.mem_cons_self
        · exact Or.inl hmem
      · exact Or.inr (List.mem_cons_of_mem _ hstart)
    | close u =>
      cases stack with
      | nil => cases h
      | cons v stack =>
        rw [openAfter] at h
        split at h
        · exact (ih h).imp (List.mem_cons_of_mem v) (List.mem_cons_of_mem _)
        · cases h
    | empty u =>
      have hsame : openAfter stack es = some stack' := h
      exact (ih hsame).imp id (List.mem_cons_of_mem _)
    | leaf l =>
      have hsame : openAfter stack es = some stack' := h
      exact (ih hsame).imp id (List.mem_cons_of_mem _)

/-- What is open is closed in order: the content of the innermost element comes first. -/
theorem exists_content {es : List (Event τ ν)} {t : τ} {stack : List τ}
    (h : openAfter (t :: stack) es = some []) : ∃ (f : Forest τ ν) (rest : List (Event τ ν)),
      es = f.events ++ .close t :: rest ∧ openAfter stack rest = some [] := by
  -- the rest is shorter, so what follows a nested element can be split again
  induction hn : es.length using Nat.strongRecOn generalizing es t stack with
  | _ n ih =>
    cases es with
    | nil => cases h
    | cons e es =>
      have hlt : es.length < n := by rw [← hn]; exact Nat.lt_succ_self _
      cases e with
      | start u =>
        have hkids : openAfter (u :: t :: stack) es = some [] := h
        obtain ⟨kids, rest₁, rfl, hrest⟩ := ih es.length hlt hkids rfl
        obtain ⟨f, rest, rfl, hafter⟩ := ih rest₁.length (by
          simp only [List.length_append, List.length_cons] at hlt
          omega) hrest rfl
        exact ⟨.node u kids f, rest, by simp, hafter⟩
      | close u =>
        rw [openAfter] at h
        split at h
        · rename_i hu
          exact ⟨.nil, es, by rw [hu]; rfl, h⟩
        · cases h
      | empty u =>
        have hes : openAfter (t :: stack) es = some [] := h
        obtain ⟨f, rest, rfl, hafter⟩ := ih es.length hlt hes rfl
        exact ⟨.empty u f, rest, rfl, hafter⟩
      | leaf l =>
        have hes : openAfter (t :: stack) es = some [] := h
        obtain ⟨f, rest, rfl, hafter⟩ := ih es.length hlt hes rfl
        exact ⟨.leaf l f, rest, rfl, hafter⟩

/-- Events after which no tag is open are those of a forest. -/
theorem exists_forest {es : List (Event τ ν)} (h : openAfter [] es = some []) :
    ∃ f : Forest τ ν, f.events = es := by
  induction hn : es.length using Nat.strongRecOn generalizing es with
  | _ n ih =>
    cases es with
    | nil => exact ⟨.nil, rfl⟩
    | cons e es =>
      have hlt : es.length < n := by rw [← hn]; exact Nat.lt_succ_self _
      cases e with
      | start t =>
        obtain ⟨kids, rest, rfl, hrest⟩ := exists_content h
        obtain ⟨f, rfl⟩ := ih rest.length (by
          simp only [List.length_append, List.length_cons] at hlt
          omega) hrest rfl
        exact ⟨.node t kids f, rfl⟩
      | close t => cases h
      | empty t =>
        have hes : openAfter [] es = some [] := h
        obtain ⟨f, rfl⟩ := ih es.length hlt hes rfl
        exact ⟨.empty t f, rfl⟩
      | leaf l =>
        have hes : openAfter [] es = some [] := h
        obtain ⟨f, rfl⟩ := ih es.length hlt hes rfl
        exact ⟨.leaf l f, rfl⟩

/-- Every end tag closes the innermost open tag. -/
def Nested (es : List (Event τ ν)) : Prop := (openAfter [] es).isSome

theorem nested_events (f : Forest τ ν) : Nested f.events := by
  have h := openAfter_events f [] []
  rw [List.append_nil] at h
  rw [Nested, h]
  rfl

end Nesting

/-! ## Other tags -/

def Event.mapTag (g : τ → τ') : Event τ ν → Event τ' ν
  | .start t => .start (g t)
  | .empty t => .empty (g t)
  | .close t => .close (g t)
  | .leaf l => .leaf l

def EventStream.mapTags (g : τ → τ') (s : EventStream τ ν) : EventStream τ' ν :=
  ⟨s.events.map (Event.mapTag g), s.error⟩

def Forest.mapTags (g : τ → τ') : Forest τ ν → Forest τ' ν
  | .nil => .nil
  | .leaf l rest => .leaf l (rest.mapTags g)
  | .empty t rest => .empty (g t) (rest.mapTags g)
  | .node t kids rest => .node (g t) (kids.mapTags g) (rest.mapTags g)

@[simp] theorem Forest.events_mapTags (g : τ → τ') (f : Forest τ ν) :
    (f.mapTags g).events = f.events.map (Event.mapTag g) := by
  induction f with
  | nil => rfl
  | leaf l rest ih => simp [Forest.mapTags, Event.mapTag, ih]
  | empty t rest ih => simp [Forest.mapTags, Event.mapTag, ih]
  | node t kids rest ihk ihr => simp [Forest.mapTags, Event.mapTag, ihk, ihr]

theorem Forest.stream_mapTags (g : τ → τ') (f : Forest τ ν) :
    f.stream.mapTags g = (f.mapTags g).stream := by
  rw [Forest.stream, EventStream.mapTags, Forest.stream, Forest.events_mapTags]

end DianService.Lib.Xml
