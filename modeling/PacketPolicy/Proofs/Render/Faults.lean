import PacketPolicy.Proofs.Render.Omissions

/-!
This module contains how faults are found: places are looked at in order, and the first one with a
fault decides. For the terms of a filter, a place is a term together with those before it, which can
have taken its label.
-/

namespace PacketPolicy

theorem bind_eq_error {x : Except ε α} {next : α → Except ε β} :
    (x >>= next) = .error e ↔ x = .error e ∨ ∃ a, x = .ok a ∧ next a = .error e := by
  cases x <;> simp [bind, Except.bind]

def fault? : Except ε α → Option ε
  | .error e => some e
  | .ok _ => none

theorem fault?_eq_some {x : Except ε α} : fault? x = some e ↔ x = .error e := by
  cases x <;> simp [fault?]

def FirstFault (faulty : α → ε → Prop) (as : List α) (e : ε) : Prop :=
  ∃ before a after, as = before ++ a :: after ∧ (∀ b ∈ before, ∀ e', ¬faulty b e') ∧ faulty a e

namespace FirstFault

variable {faulty : α → ε → Prop} {as bs : List α}

theorem nil_iff : FirstFault faulty [] e ↔ False := by
  simp [FirstFault]

theorem cons_iff :
    FirstFault faulty (a :: as) e ↔ faulty a e ∨ (∀ e', ¬faulty a e') ∧ FirstFault faulty as e := by
  constructor
  . rintro ⟨before, x, after, heq, hbefore, hx⟩
    cases before with
    | nil =>
      cases heq
      exact .inl hx
    | cons b before =>
      cases heq
      rw [List.forall_mem_cons] at hbefore
      exact .inr ⟨hbefore.1, before, x, after, rfl, hbefore.2, hx⟩
  . rintro (ha | ⟨ha, before, x, after, rfl, hbefore, hx⟩)
    . exact ⟨[], a, as, rfl, by simp, ha⟩
    . exact ⟨a :: before, x, after, rfl, List.forall_mem_cons.mpr ⟨ha, hbefore⟩, hx⟩

theorem append_iff :
    FirstFault faulty (as ++ bs) e ↔
      FirstFault faulty as e ∨ (∀ a ∈ as, ∀ e', ¬faulty a e') ∧ FirstFault faulty bs e := by
  induction as with
  | nil => simp [nil_iff]
  | cons a as ih =>
    rw [List.cons_append, cons_iff, cons_iff, ih, List.forall_mem_cons]
    tauto

theorem not_exists_iff : (∀ e, ¬FirstFault faulty as e) ↔ ∀ a ∈ as, ∀ e, ¬faulty a e := by
  induction as with
  | nil => simp [nil_iff]
  | cons a as ih =>
    simp only [cons_iff, not_or, not_and, List.forall_mem_cons, ← ih]
    constructor
    . intro h
      exact ⟨fun e => (h e).1, fun e => (h e).2 fun e' => (h e').1⟩
    . rintro ⟨ha, has⟩ e
      exact ⟨ha e, fun _ => has e⟩

theorem exists_iff : (∃ e, FirstFault faulty as e) ↔ ∃ a ∈ as, ∃ e, faulty a e := by
  have h := not_congr (@not_exists_iff _ _ faulty as)
  push Not at h
  exact h

theorem map_iff {g : β → α} {bs : List β} :
    FirstFault faulty (bs.map g) e ↔ FirstFault (fun b => faulty (g b)) bs e := by
  induction bs with
  | nil => rw [List.map_nil, nil_iff, nil_iff]
  | cons b bs ih => rw [List.map_cons, cons_iff, cons_iff, ih]

theorem flatMap_iff {g : β → List α} {bs : List β} :
    FirstFault faulty (bs.flatMap g) e ↔ FirstFault (fun b => FirstFault faulty (g b)) bs e := by
  induction bs with
  | nil => rw [List.flatMap_nil, nil_iff, nil_iff]
  | cons b bs ih => rw [List.flatMap_cons, append_iff, cons_iff, ih, not_exists_iff]

theorem congr {faulty' : α → ε → Prop} (h : ∀ a ∈ as, ∀ e, faulty a e ↔ faulty' a e) :
    FirstFault faulty as e ↔ FirstFault faulty' as e := by
  induction as with
  | nil => rw [nil_iff, nil_iff]
  | cons a as ih =>
    rw [List.forall_mem_cons] at h
    simp only [cons_iff, h.1, ih h.2]

theorem mapM_eq_error_iff {g : α → Except ε β} :
    as.mapM g = .error e ↔ FirstFault (fun a e => g a = .error e) as e := by
  induction as with
  | nil => simp [nil_iff, pure, Except.pure]
  | cons a as ih =>
    rw [List.mapM_cons, cons_iff, bind_eq_error]
    cases ha : g a with
    | error e' => simp
    | ok b => simp [bind_eq_error, ih, pure, Except.pure]

end FirstFault

def withPrecedents : (before : List α) → List α → List (List α × α)
  | _, [] => []
  | before, a :: as => (before, a) :: withPrecedents (before ++ [a]) as

namespace Renderer

variable {r : Renderer α β} {clock : Clock}

/--
A term is refused: it does not pass its check, or it is to be rendered but cannot be finished, or
its label is that of a term before it.
-/
inductive Refuses (r : Renderer α β) (clock : Clock) (before : List Term) (t : Term) :
    Fault → Prop where
  | invalid : r.check t = .error e → Refuses r clock before t (e.annotate r.platform r.filter)
  | unfinished : r.check t = .ok m → Icmp.foreign? r.family t.protocol = none →
      clock.expiry t.expiration ≠ .expired → r.finish t m = .error e →
      Refuses r clock before t (e.annotate r.platform r.filter)
  | repeated : r.Keeps clock t b → t' ∈ before → r.Keeps clock t' b' → r.label b' = r.label b →
      Refuses r clock before t (r.duplicate (r.label b))

def Taken (r : Renderer α β) (clock : Clock) (before : List Term) (seen : List String) : Prop :=
  ∀ label, label ∈ seen ↔ ∃ t ∈ before, ∃ b, r.Keeps clock t b ∧ r.label b = label

theorem taken_nil : r.Taken clock [] [] := by
  simp [Taken]

theorem verdict_cases (r : Renderer α β) (clock : Clock) (t : Term) :
    (∃ e, r.check t = .error e ∧ r.verdict clock t = .invalid (e.annotate r.platform r.filter))
      ∨ (r.Drops clock t ∧ (r.verdict clock t = .foreign ∨ r.verdict clock t = .expired))
      ∨ (∃ m e expiry, r.check t = .ok m ∧ Icmp.foreign? r.family t.protocol = none
          ∧ clock.expiry t.expiration ≠ .expired ∧ r.finish t m = .error e
          ∧ r.verdict clock t = .unfinished expiry (e.annotate r.platform r.filter))
      ∨ ∃ b expiry, r.Keeps clock t b ∧ r.verdict clock t = .kept expiry b := by
  generalize hverdict : r.verdict clock t = verdict
  unfold Renderer.verdict at hverdict
  split at hverdict
  . next e hcheck => exact .inl ⟨e, hcheck, hverdict.symm⟩
  . next m hcheck =>
    right
    split at hverdict
    . next hforeign =>
      exact .inl ⟨⟨m, hcheck, .inl (Option.isSome_iff_ne_none.mp hforeign)⟩, .inl hverdict.symm⟩
    . next hforeign =>
      have hforeign : Icmp.foreign? r.family t.protocol = none := by simpa using hforeign
      split at hverdict
      . next hexpired => exact .inl ⟨⟨m, hcheck, .inr hexpired⟩, .inr hverdict.symm⟩
      . next hexpired =>
        right
        split at hverdict
        . next e hfinish => exact .inl ⟨m, e, _, hcheck, hforeign, hexpired, hfinish, hverdict.symm⟩
        . next b hfinish =>
          exact .inr ⟨b, _, ⟨m, hcheck, hforeign, hexpired, hfinish⟩, hverdict.symm⟩

theorem refuses_iff_of_invalid (h : r.check t = .error e') :
    r.Refuses clock before t e ↔ e'.annotate r.platform r.filter = e := by
  constructor
  . intro hrefuses
    cases hrefuses with
    | invalid hinvalid =>
      cases h.symm.trans hinvalid
      rfl
    | unfinished hcheck _ _ _ => cases h.symm.trans hcheck
    | repeated hkeeps _ _ _ =>
      obtain ⟨_, hcheck, _⟩ := hkeeps
      cases h.symm.trans hcheck
  . rintro rfl
    exact .invalid h

theorem refuses_iff_of_unfinished (hcheck : r.check t = .ok m)
    (hforeign : Icmp.foreign? r.family t.protocol = none)
    (hexpiry : clock.expiry t.expiration ≠ .expired) (hfinish : r.finish t m = .error e') :
    r.Refuses clock before t e ↔ e'.annotate r.platform r.filter = e := by
  constructor
  . intro hrefuses
    cases hrefuses with
    | invalid hinvalid => cases hcheck.symm.trans hinvalid
    | unfinished hcheck' _ _ hfinish' =>
      cases hcheck.symm.trans hcheck'
      cases hfinish.symm.trans hfinish'
      rfl
    | repeated hkeeps _ _ _ =>
      obtain ⟨_, hcheck', _, _, hfinish'⟩ := hkeeps
      cases hcheck.symm.trans hcheck'
      cases hfinish.symm.trans hfinish'
  . rintro rfl
    exact .unfinished hcheck hforeign hexpiry hfinish

theorem Drops.not_keeps (h : r.Drops clock t) : ¬r.Keeps clock t b := by
  obtain ⟨_, _, hdrops⟩ := h
  rintro ⟨_, _, hforeign, hexpiry, _⟩
  exact hdrops.elim (absurd hforeign) hexpiry

theorem Drops.not_refuses (h : r.Drops clock t) : ¬r.Refuses clock before t e := by
  obtain ⟨m, hcheck, hdrops⟩ := id h
  intro hrefuses
  cases hrefuses with
  | invalid hinvalid => cases hcheck.symm.trans hinvalid
  | unfinished _ hforeign hexpiry _ => exact hdrops.elim (absurd hforeign) hexpiry
  | repeated hkeeps _ _ _ => exact h.not_keeps hkeeps

theorem refuses_iff_of_keeps (h : r.Keeps clock t b) (htaken : r.Taken clock before seen) :
    r.Refuses clock before t e ↔ r.label b ∈ seen ∧ r.duplicate (r.label b) = e := by
  obtain ⟨m, hcheck, _, _, hfinish⟩ := id h
  constructor
  . intro hrefuses
    cases hrefuses with
    | invalid hinvalid => cases hcheck.symm.trans hinvalid
    | unfinished hcheck' _ _ hfinish' =>
      cases hcheck.symm.trans hcheck'
      cases hfinish.symm.trans hfinish'
    | repeated hkeeps ht' hkeeps' hlabel =>
      obtain rfl := h.eq hkeeps
      exact ⟨(htaken _).mpr ⟨_, ht', _, hkeeps', hlabel⟩, rfl⟩
  . rintro ⟨hseen, rfl⟩
    obtain ⟨t', ht', b', hkeeps', hlabel⟩ := (htaken _).mp hseen
    exact .repeated h ht' hkeeps' hlabel

theorem block_eq_error_iff (htaken : r.Taken clock before seen) :
    (r.block clock seen t).result = .error e ↔ r.Refuses clock before t e := by
  unfold block
  obtain ⟨e', hcheck, hverdict⟩ | ⟨hdrops, hverdict⟩ | ⟨m, e', expiry, hcheck, hforeign, hexpiry,
    hfinish, hverdict⟩
    | ⟨b, expiry, hkeeps, hverdict⟩ := r.verdict_cases clock t
  . rw [hverdict, refuses_iff_of_invalid hcheck]
    simp [Traced.fail]
  . obtain hverdict | hverdict := hverdict <;> simp [hverdict, hdrops.not_refuses]
  . rw [hverdict, refuses_iff_of_unfinished hcheck hforeign hexpiry hfinish]
    simp
  . rw [hverdict, refuses_iff_of_keeps hkeeps htaken]
    by_cases hseen : r.label b ∈ seen <;> simp [hseen]

theorem Taken.drop (h : r.Taken clock before seen) (hdrops : r.Drops clock t) :
    r.Taken clock (before ++ [t]) seen := by
  intro label
  rw [h label]
  constructor
  . rintro ⟨t', ht', hkeeps⟩
    exact ⟨t', List.mem_append_left _ ht', hkeeps⟩
  . rintro ⟨t', ht', b, hkeeps, hlabel⟩
    obtain ht' | ht' := List.mem_append.mp ht'
    . exact ⟨t', ht', b, hkeeps, hlabel⟩
    . rw [List.mem_singleton.mp ht'] at hkeeps
      exact absurd hkeeps hdrops.not_keeps

theorem Taken.keep (h : r.Taken clock before seen) (hkeeps : r.Keeps clock t b) :
    r.Taken clock (before ++ [t]) (r.label b :: seen) := by
  intro label
  rw [List.mem_cons, h label]
  constructor
  . rintro (rfl | ⟨t', ht', hkeeps'⟩)
    . exact ⟨t, by simp, b, hkeeps, rfl⟩
    . exact ⟨t', List.mem_append_left _ ht', hkeeps'⟩
  . rintro ⟨t', ht', b', hkeeps', hlabel⟩
    obtain ht' | ht' := List.mem_append.mp ht'
    . exact .inr ⟨t', ht', b', hkeeps', hlabel⟩
    . rw [List.mem_singleton.mp ht'] at hkeeps'
      obtain rfl := hkeeps.eq hkeeps'
      exact .inl hlabel.symm

theorem blocksFrom_eq_error_iff (htaken : r.Taken clock before seen) :
    (r.blocksFrom clock seen ts).result = .error e ↔
      FirstFault (fun place => r.Refuses clock place.1 place.2)
        (withPrecedents before (ts.filter fun t => t.appliesTo r.platform)) e := by
  -- What a place needs to know of the terms before it is which labels they have taken.
  induction ts generalizing seen before with
  | nil =>
    rw [List.filter_nil, withPrecedents, FirstFault.nil_iff]
    simp [blocksFrom, pure, Traced.pure]
  | cons t ts ih =>
    unfold blocksFrom
    split
    . next happlies =>
      rw [List.filter_cons, if_pos happlies, withPrecedents, FirstFault.cons_iff,
        Traced.result_bind, bind_eq_error]
      simp only [← block_eq_error_iff htaken]
      cases hblock : (r.block clock seen t).result with
      | error e' => simp
      | ok b? =>
        obtain ⟨rfl, hdrops⟩ | ⟨b, rfl, hkeeps, _⟩ := block_eq_ok hblock
        . simp [ih (htaken.drop hdrops)]
        . simp [Traced.result_bind, bind_eq_error, ih (htaken.keep hkeeps), pure, Traced.pure]
    . next happlies =>
      rw [List.filter_cons, if_neg happlies]
      exact ih htaken

end Renderer
end PacketPolicy
