import Mathlib.Data.List.Forall2

namespace PacketPolicy

theorem bind_eq_ok {x : Except ε α} {next : α → Except ε β} :
    (x >>= next) = .ok b ↔ ∃ a, x = .ok a ∧ next a = .ok b := by
  cases x <;> simp [bind, Except.bind]

theorem throw_bind_ne_ok {next : α → Except ε β} : (throw e >>= next) ≠ .ok b := by
  simp [throw, throwThe, MonadExceptOf.throw, bind, Except.bind]

theorem pure_eq_ok : (pure a : Except ε α) = .ok b ↔ a = b := by
  simp [pure, Except.pure]

theorem mapError_eq_ok {x : Except ε α} {g : ε → δ} : x.mapError g = .ok a ↔ x = .ok a := by
  cases x with
  | error e => constructor <;> intro h <;> cases h
  | ok b => constructor <;> intro h <;> cases h <;> rfl

theorem map_eq_ok {x : Except ε α} {g : α → β} : x.map g = .ok b ↔ ∃ a, x = .ok a ∧ g a = b := by
  cases x <;> simp [Except.map]

theorem eq_ok_of_toOption {x : Except ε α} (h : x.toOption = some a) : x = .ok a := by
  cases x with
  | error e => cases h
  | ok b =>
    cases h
    rfl

theorem exists_ok_of_any {x : Except ε α} (h : x.toOption.any p = true) :
    ∃ a, x = .ok a ∧ p a = true := by
  cases x with
  | error e => simp [Except.toOption] at h
  | ok a => exact ⟨a, rfl, h⟩

variable {as : List α}

theorem mapM_cons_eq_ok {g : α → Except ε β} :
    (a :: as).mapM g = .ok bs ↔ ∃ b bs', g a = .ok b ∧ as.mapM g = .ok bs' ∧ b :: bs' = bs := by
  simp only [List.mapM_cons, bind_eq_ok, pure_eq_ok]
  constructor
  . rintro ⟨b, hb, bs', hbs', h⟩
    exact ⟨b, bs', hb, hbs', h⟩
  . rintro ⟨b, bs', hb, hbs', h⟩
    exact ⟨b, hb, bs', hbs', h⟩

theorem mapM_eq_ok_map {g : α → Except ε β} {k : α → β} (h : ∀ a ∈ as, g a = .ok (k a)) :
    as.mapM g = .ok (as.map k) := by
  induction as with
  | nil => rfl
  | cons a as ih =>
    rw [List.forall_mem_cons] at h
    exact mapM_cons_eq_ok.mpr ⟨k a, as.map k, h.1, ih h.2, rfl⟩

theorem mem_of_mapM_eq_ok {g : α → Except ε β} (h : as.mapM g = .ok bs) :
    b ∈ bs ↔ ∃ a ∈ as, g a = .ok b := by
  induction as generalizing bs with
  | nil =>
    have : [] = bs := pure_eq_ok.mp h
    simp [← this]
  | cons a as ih =>
    obtain ⟨b', bs', hb', hbs', rfl⟩ := mapM_cons_eq_ok.mp h
    simp [ih hbs', hb', eq_comm]

theorem exists_of_mapM_eq_ok {g : α → Except ε β} (h : as.mapM g = .ok bs) (ha : a ∈ as) :
    ∃ b ∈ bs, g a = .ok b := by
  induction as generalizing bs with
  | nil => simp at ha
  | cons a' as ih =>
    obtain ⟨b', bs', hb', hbs', rfl⟩ := mapM_cons_eq_ok.mp h
    cases ha with
    | head => exact ⟨b', by simp, hb'⟩
    | tail _ ha =>
      obtain ⟨b, hb, hgb⟩ := ih hbs' ha
      exact ⟨b, by simp [hb], hgb⟩

theorem forall₂_of_mapM_eq_ok {g : α → Except ε β} (h : as.mapM g = .ok bs) :
    List.Forall₂ (fun a b => g a = .ok b) as bs := by
  induction as generalizing bs with
  | nil =>
    obtain rfl : [] = bs := pure_eq_ok.mp h
    exact .nil
  | cons a as ih =>
    obtain ⟨b, bs', hb, hbs', rfl⟩ := mapM_cons_eq_ok.mp h
    exact .cons hb (ih hbs')

theorem exists_mapM_of_perm {g : α → Except ε β} {as' : List α} {bs : List β} (h : as.Perm as')
    (hbs : as.mapM g = .ok bs) : ∃ bs', as'.mapM g = .ok bs' ∧ bs.Perm bs' := by
  induction h generalizing bs with
  | nil => exact ⟨bs, hbs, .refl bs⟩
  | cons a _ ih =>
    obtain ⟨b, rest, hb, hrest, rfl⟩ := mapM_cons_eq_ok.mp hbs
    obtain ⟨rest', hrest', hperm⟩ := ih hrest
    exact ⟨b :: rest', mapM_cons_eq_ok.mpr ⟨b, rest', hb, hrest', rfl⟩, hperm.cons b⟩
  | swap a a' as =>
    obtain ⟨b', _, hb', htail, rfl⟩ := mapM_cons_eq_ok.mp hbs
    obtain ⟨b, rest, hb, hrest, rfl⟩ := mapM_cons_eq_ok.mp htail
    refine ⟨b :: b' :: rest, mapM_cons_eq_ok.mpr ⟨b, b' :: rest, hb, ?_, rfl⟩, .swap b b' rest⟩
    exact mapM_cons_eq_ok.mpr ⟨b', rest, hb', hrest, rfl⟩
  | trans _ _ ih ih' =>
    obtain ⟨bs₁, hbs₁, hperm⟩ := ih hbs
    obtain ⟨bs', hbs', hperm'⟩ := ih' hbs₁
    exact ⟨bs', hbs', hperm.trans hperm'⟩

theorem foldlM_induction {step : σ → α → Except ε σ} {P : σ → Prop} (h : as.foldlM step s = .ok s')
    (hs : P s) (hstep : ∀ a ∈ as, ∀ s s', step s a = .ok s' → P s → P s') :
    P s' := by
  induction as generalizing s with
  | nil =>
    obtain rfl := pure_eq_ok.mp h
    exact hs
  | cons a as ih =>
    rw [List.foldlM_cons] at h
    obtain ⟨s₁, hfirst, hrest⟩ := bind_eq_ok.mp h
    exact ih hrest (hstep a List.mem_cons_self s s₁ hfirst hs) fun b hb =>
      hstep b (List.mem_cons_of_mem a hb)

theorem exists_mem_map {g : α → β} {P : β → Prop} : (∃ b ∈ as.map g, P b) ↔ ∃ a ∈ as, P (g a) := by
  constructor
  . rintro ⟨b, hb, h⟩
    obtain ⟨a, ha, rfl⟩ := List.mem_map.mp hb
    exact ⟨a, ha, h⟩
  . rintro ⟨a, ha, h⟩
    exact ⟨g a, List.mem_map_of_mem ha, h⟩

theorem exists_mem_flatMap {g : α → List β} {P : β → Prop} :
    (∃ b ∈ as.flatMap g, P b) ↔ ∃ a ∈ as, ∃ b ∈ g a, P b := by
  constructor
  . rintro ⟨b, hb, h⟩
    obtain ⟨a, ha, hb⟩ := List.mem_flatMap.mp hb
    exact ⟨a, ha, b, hb, h⟩
  . rintro ⟨a, ha, b, hb, h⟩
    exact ⟨b, List.mem_flatMap.mpr ⟨a, ha, hb⟩, h⟩

/--
If every element of a list has a partner in another list, and no two of them share one, the other
list is as long.
-/
theorem length_le_of_choice [DecidableEq β] {R : α → β → Prop} {bs : List β}
    (hpartner : ∀ a ∈ as, ∃ b ∈ bs, R a b)
    (hown : as.Pairwise fun a a' => ∀ b ∈ bs, ¬(R a b ∧ R a' b)) :
    as.length ≤ bs.length := by
  induction as generalizing bs with
  | nil => simp
  | cons a as ih =>
    obtain ⟨hhead, htail⟩ := List.pairwise_cons.mp hown
    obtain ⟨b, hb, hab⟩ := hpartner a List.mem_cons_self
    -- The partner of the head is no partner of the others, which are left to the rest.
    have hrest : as.length ≤ (bs.erase b).length := by
      apply ih
      . intro a' ha'
        obtain ⟨b', hb', hab'⟩ := hpartner a' (List.mem_cons_of_mem a ha')
        refine ⟨b', (List.mem_erase_of_ne ?_).mpr hb', hab'⟩
        intro heq
        subst heq
        exact hhead a' ha' b' hb' ⟨hab, hab'⟩
      . apply htail.imp
        intro a' a'' h b' hb'
        exact h b' (List.mem_of_mem_erase hb')
    have := List.length_pos_of_mem hb
    rw [List.length_erase_of_mem hb] at hrest
    rw [List.length_cons]
    omega

theorem mem_intercalate {sep : List α} {parts : List (List α)} (h : x ∈ sep.intercalate parts) :
    x ∈ sep ∨ ∃ part ∈ parts, x ∈ part := by
  induction parts with
  | nil => simp at h
  | cons part parts ih =>
    by_cases hnil : parts = []
    . subst hnil
      rw [List.intercalate_singleton] at h
      exact .inr ⟨part, List.mem_singleton_self part, h⟩
    . rw [List.intercalate_cons_of_ne_nil hnil] at h
      grind

theorem intercalate_concat (separator : List α) (xs : List (List α)) (x : List α) :
    separator.intercalate (xs ++ [x]) = xs.flatMap (· ++ separator) ++ x := by
  induction xs with
  | nil => simp
  | cons y xs ih =>
    rw [List.cons_append, List.intercalate_cons_of_ne_nil (by simp), ih, List.flatMap_cons]
    simp only [List.append_assoc]

end PacketPolicy
