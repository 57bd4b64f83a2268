import Mathlib.Data.List.Forall2

/-!
# Lists side by side

Two lists stand side by side if each item of one is related to the item of the other that stands in
its place.  What a partial function finds for the items of a list, one after another, stands beside
the list; and it finds nothing only if one of the items has nothing.

Main statement: `of_mapM`.
-/

namespace ParcelCodec.Alongside

variable {α β γ : Type}

/-! ## §1. Related lists. -/

section Related

variable {R : α → β → Prop} {as : List α} {bs : List β}

/-- Every item on the left has a partner on the right. -/
theorem exists_right (h : List.Forall₂ R as bs) : ∀ a ∈ as, ∃ b ∈ bs, R a b := by
  induction h with
  | nil => exact nofun
  | @cons a b as bs here _ ih =>
    refine List.forall_mem_cons.mpr ⟨⟨b, List.mem_cons_self, here⟩, fun a' ha' => ?_⟩
    obtain ⟨b', hb', there⟩ := ih a' ha'
    exact ⟨b', List.mem_cons_of_mem b hb', there⟩

theorem exists_left (h : List.Forall₂ R as bs) : ∀ b ∈ bs, ∃ a ∈ as, R a b :=
  exists_right h.flip

/-- What is related to a list in two parts falls into two parts. -/
theorem split {as' : List α} (h : List.Forall₂ R (as ++ as') bs) :
    ∃ front back, bs = front ++ back ∧ List.Forall₂ R as front ∧ List.Forall₂ R as' back :=
  ⟨bs.take as.length, bs.drop as.length, (List.take_append_drop _ _).symm,
    (List.forall₂_take_append bs as as' h.flip).flip,
    (List.forall₂_drop_append bs as as' h.flip).flip⟩

theorem trans {S : β → γ → Prop} {T : α → γ → Prop} (compose : ∀ a b c, R a b → S b c → T a c)
    {cs : List γ} (h : List.Forall₂ R as bs) (h' : List.Forall₂ S bs cs) :
    List.Forall₂ T as cs := by
  induction h generalizing cs with
  | nil =>
    cases h'
    exact .nil
  | cons first _ ih =>
    cases h' with
    | cons first' others => exact .cons (compose _ _ _ first first') (ih others)

/-- Items side by side have the same images if each pair has. -/
theorem map_eq_iff {f : α → γ} {g : β → γ} :
    as.map f = bs.map g ↔ List.Forall₂ (fun a b => f a = g b) as bs := by
  rw [← List.forall₂_map_right_iff, ← List.forall₂_map_left_iff, List.forall₂_eq_eq_eq]

end Related

/-! ## §2. What is found for each of several items. -/

section Found

variable {f : α → Option β}

/-- What is found stands beside the items. -/
theorem of_mapM : ∀ {as : List α} {bs : List β}, as.mapM f = some bs →
    List.Forall₂ (fun a b => f a = some b) as bs
  | [], _, h => by
    cases h
    exact .nil
  | a :: rest, bs, h => by
    rw [List.mapM_cons] at h
    obtain ⟨first, found, h⟩ := Option.bind_eq_some_iff.mp h
    obtain ⟨others, later, h⟩ := Option.bind_eq_some_iff.mp h
    cases h
    exact .cons found (of_mapM later)

/-- Of several items, one for which nothing is found keeps the results away. -/
theorem exists_none_of_mapM : ∀ {as : List α}, as.mapM f = none → ∃ a ∈ as, f a = none
  | [], h => by cases h
  | a :: rest, h => by
    rcases found : f a with _ | b
    · exact ⟨a, List.mem_cons_self, found⟩
    · rw [List.mapM_cons, found] at h
      rcases later : rest.mapM f with _ | bs
      · obtain ⟨a', ha', none⟩ := exists_none_of_mapM later
        exact ⟨a', List.mem_cons_of_mem a ha', none⟩
      · rw [later] at h
        cases h

theorem isSome_mapM {as : List α} (h : ∀ a ∈ as, (f a).isSome = true) :
    (as.mapM f).isSome = true := by
  by_contra none
  obtain ⟨a, ha, missing⟩ := exists_none_of_mapM (Option.not_isSome_iff_eq_none.mp none)
  have some := h a ha
  rw [missing] at some
  cases some

end Found

/-- Of several items that are worked through, one that fails is why all of them fail. -/
theorem exists_error_of_mapM {ε : Type} {f : α → Except ε β} {e : ε} : ∀ {as : List α},
    as.mapM f = .error e → ∃ a ∈ as, f a = .error e
  | [], h => by cases h
  | a :: rest, h => by
    rw [List.mapM_cons] at h
    rcases first : f a with e' | b
    · rw [first] at h
      cases h
      exact ⟨a, List.mem_cons_self, first⟩
    · rcases others : rest.mapM f with e' | bs
      · rw [first, others] at h
        cases h
        obtain ⟨a', ha', failed⟩ := exists_error_of_mapM others
        exact ⟨a', List.mem_cons_of_mem a ha', failed⟩
      · rw [first, others] at h
        cases h

end ParcelCodec.Alongside
