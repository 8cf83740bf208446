import Mathlib.Data.List.Basic

/-!
This module contains lists that are closed under references: each element refers only to what is
known at the start or what an element before it has declared.
-/

namespace PacketPolicy

def Closed (declared? : α → Option β) (Resolves : List β → α → Prop) (known : List β)
    (as : List α) : Prop :=
  ∀ before a after, as = before ++ a :: after → Resolves (known ++ before.filterMap declared?) a

def Persistent (Resolves : List β → α → Prop) : Prop :=
  ∀ known known' a, known ⊆ known' → Resolves known a → Resolves known' a

def Finds (refers : α → List β) (known : List β) (a : α) : Prop :=
  ∀ b ∈ refers a, b ∈ known

theorem persistent_finds (refers : α → List β) : Persistent (Finds refers) := by
  intro known known' a hsub h b hb
  exact hsub (h b hb)

theorem forall_split_cons {P : List α → α → Prop} {a : α} {as : List α} :
    (∀ before x after, a :: as = before ++ x :: after → P before x) ↔
      P [] a ∧ ∀ before x after, as = before ++ x :: after → P (a :: before) x := by
  constructor
  . intro h
    exact ⟨h [] a as rfl,
      fun before x after heq => h (a :: before) x after (by rw [heq, List.cons_append])⟩
  . rintro ⟨hhead, htail⟩ before x after heq
    cases before with
    | nil =>
      cases heq
      exact hhead
    | cons b before =>
      cases heq
      exact htail before x after rfl

namespace Closed

variable {declared? : α → Option β} {Resolves : List β → α → Prop} {known : List β} {as bs : List α}

theorem nil : Closed declared? Resolves known [] := by
  intro before a after heq
  simp at heq

theorem append_declared_cons (declared? : α → Option β) (known : List β) (a : α) (as : List α) :
    known ++ (a :: as).filterMap declared?
      = known ++ (declared? a).toList ++ as.filterMap declared? := by
  cases h : declared? a <;> simp [h]

theorem cons_iff :
    Closed declared? Resolves known (a :: as) ↔
      Resolves known a ∧ Closed declared? Resolves (known ++ (declared? a).toList) as := by
  unfold Closed
  rw [forall_split_cons (P := fun before a => Resolves (known ++ before.filterMap declared?) a)]
  simp only [append_declared_cons, List.filterMap_nil, List.append_nil]

theorem append_iff :
    Closed declared? Resolves known (as ++ bs) ↔
      Closed declared? Resolves known as
        ∧ Closed declared? Resolves (known ++ as.filterMap declared?) bs := by
  induction as generalizing known with
  | nil => simp [nil]
  | cons a as ih =>
    rw [List.cons_append, cons_iff, cons_iff, ih, and_assoc, append_declared_cons]

theorem mono (hpersistent : Persistent Resolves) (hsub : known ⊆ known')
    (h : Closed declared? Resolves known as) :
    Closed declared? Resolves known' as := by
  intro before a after heq
  apply hpersistent _ _ a _ (h before a after heq)
  exact List.append_subset.mpr ⟨List.subset_append_of_subset_left _ hsub,
    List.subset_append_right _ _⟩

theorem of_forall (hpersistent : Persistent Resolves) (h : ∀ a ∈ as, Resolves known a) :
    Closed declared? Resolves known as := by
  intro before a after heq
  exact hpersistent _ _ a (List.subset_append_left _ _) (h a (by simp [heq]))

theorem resolves_of_mem (hpersistent : Persistent Resolves) (h : Closed declared? Resolves known as)
    (ha : a ∈ as) :
    Resolves (known ++ as.filterMap declared?) a := by
  obtain ⟨before, after, rfl⟩ := List.append_of_mem ha
  apply hpersistent _ _ a _ (h before a after rfl)
  rw [List.filterMap_append, ← List.append_assoc]
  exact List.subset_append_left _ _

theorem flatMap (hpersistent : Persistent Resolves) {g : γ → List α} {cs : List γ}
    (h : ∀ c ∈ cs, Closed declared? Resolves known (g c)) :
    Closed declared? Resolves known (cs.flatMap g) := by
  induction cs with
  | nil => exact nil
  | cons c cs ih =>
    rw [List.forall_mem_cons] at h
    rw [List.flatMap_cons, append_iff]
    exact ⟨h.1, (ih h.2).mono hpersistent (List.subset_append_left _ _)⟩

theorem finds_iff_forall {refers : α → List β}
    (h : ∀ a ∈ as, ∀ b ∈ refers a, ∀ a' ∈ as, declared? a' ≠ some b) :
    Closed declared? (Finds refers) known as ↔ ∀ a ∈ as, ∀ b ∈ refers a, b ∈ known := by
  constructor
  . intro hclosed a ha b hb
    obtain hknown | hdeclared :=
      List.mem_append.mp (hclosed.resolves_of_mem (persistent_finds refers) ha b hb)
    . exact hknown
    . obtain ⟨a', ha', hdeclared⟩ := List.mem_filterMap.mp hdeclared
      exact absurd hdeclared (h a ha b hb a' ha')
  . exact of_forall (persistent_finds refers)

end Closed
end PacketPolicy
