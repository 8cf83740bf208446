import PacketPolicy.Proofs.Basic
import PacketPolicy.Render.Filter

/-!
This module contains what is known of the blocks of a filter that is rendered without a fault: every
block is made for a term of the filter, no two blocks have the same label, and every term that
applies has passed its check.
-/

namespace PacketPolicy

namespace Traced

theorem result_bind (x : Traced ε α) (next : α → Traced ε β) :
    (x >>= next).result = x.result >>= fun a => (next a).result := by
  show (Traced.bind x next).result = _
  unfold Traced.bind
  cases x.result <;> rfl

theorem result_bind_eq_ok {x : Traced ε α} {next : α → Traced ε β} :
    (x >>= next).result = .ok b ↔ ∃ a, x.result = .ok a ∧ (next a).result = .ok b := by
  rw [result_bind, bind_eq_ok]

theorem result_pure_eq_ok : (pure a : Traced ε α).result = .ok b ↔ a = b := by
  exact pure_eq_ok

end Traced

namespace Renderer

variable {r : Renderer α β} {clock : Clock}

def Keeps (r : Renderer α β) (clock : Clock) (t : Term) (b : β) : Prop :=
  ∃ m, r.check t = .ok m ∧ Icmp.foreign? r.family t.protocol = none
    ∧ clock.expiry t.expiration ≠ .expired
    ∧ r.finish t m = .ok b

def Drops (r : Renderer α β) (clock : Clock) (t : Term) : Prop :=
  ∃ m, r.check t = .ok m
    ∧ (Icmp.foreign? r.family t.protocol ≠ none ∨ clock.expiry t.expiration = .expired)

theorem verdict_eq_kept (h : r.verdict clock t = .kept expiry b) : r.Keeps clock t b := by
  unfold verdict at h
  split at h
  . simp at h
  . next m hcheck =>
    split at h
    . simp at h
    . next hforeign =>
      split at h
      . simp at h
      . next hexpiry =>
        split at h
        . simp at h
        . next hfinish =>
          cases h
          exact ⟨m, hcheck, by simpa using hforeign, hexpiry, hfinish⟩

theorem drops_of_verdict (h : r.verdict clock t = .foreign ∨ r.verdict clock t = .expired) :
    r.Drops clock t := by
  unfold verdict at h
  split at h
  . simp at h
  . next m hcheck =>
    split at h
    . next hforeign => exact ⟨m, hcheck, .inl (Option.isSome_iff_ne_none.mp hforeign)⟩
    . split at h
      . next hexpired => exact ⟨m, hcheck, .inr hexpired⟩
      . split at h <;> simp at h

theorem block_eq_ok (h : (r.block clock seen t).result = .ok b?) :
    (b? = none ∧ r.Drops clock t) ∨ ∃ b, b? = some b ∧ r.Keeps clock t b ∧ r.label b ∉ seen := by
  unfold block at h
  split at h
  . simp [Traced.fail] at h
  . next hverdict => exact .inl ⟨by simpa using h.symm, drops_of_verdict (.inl hverdict)⟩
  . next hverdict => exact .inl ⟨by simpa using h.symm, drops_of_verdict (.inr hverdict)⟩
  . simp at h
  . next b hverdict =>
    split at h
    . simp at h
    . next hseen =>
      exact .inr ⟨b, by simpa using h.symm, verdict_eq_kept hverdict, by simpa using hseen⟩

/--
The blocks of a list of terms: a term is passed over, dropped, or kept with a label that is not
among those before it.
-/
inductive Selects (r : Renderer α β) (clock : Clock) : List String → List Term → List β → Prop where
  | nil : Selects r clock seen [] []
  | skip : t.appliesTo r.platform = false → Selects r clock seen ts bs →
    Selects r clock seen (t :: ts) bs
  | drop : t.appliesTo r.platform = true → r.Drops clock t → Selects r clock seen ts bs →
      Selects r clock seen (t :: ts) bs
  | keep : t.appliesTo r.platform = true → r.Keeps clock t b → r.label b ∉ seen →
      Selects r clock (r.label b :: seen) ts bs → Selects r clock seen (t :: ts) (b :: bs)

theorem selects_of_blocksFrom (h : (r.blocksFrom clock seen ts).result = .ok bs) :
    r.Selects clock seen ts bs := by
  induction ts generalizing seen bs with
  | nil =>
    obtain rfl := Traced.result_pure_eq_ok.mp h
    exact .nil
  | cons t ts ih =>
    unfold blocksFrom at h
    split at h
    . next happlies =>
      obtain ⟨b?, hb, h⟩ := Traced.result_bind_eq_ok.mp h
      obtain ⟨rfl, hdrops⟩ | ⟨b, rfl, hkeeps, hlabel⟩ := block_eq_ok hb
      . exact .drop happlies hdrops (ih h)
      . obtain ⟨bs', hbs', h⟩ := Traced.result_bind_eq_ok.mp h
        obtain rfl := Traced.result_pure_eq_ok.mp h
        exact .keep happlies hkeeps hlabel (ih hbs')
    . next happlies => exact .skip (by simpa using happlies) (ih h)

theorem Selects.exists_keeps (h : r.Selects clock seen ts bs) (hb : b ∈ bs) :
    ∃ t ∈ ts, t.appliesTo r.platform = true ∧ r.Keeps clock t b := by
  induction h with
  | nil => simp at hb
  | skip _ _ ih =>
    obtain ⟨t, ht, hkeeps⟩ := ih hb
    exact ⟨t, List.mem_cons_of_mem _ ht, hkeeps⟩
  | drop _ _ _ ih =>
    obtain ⟨t, ht, hkeeps⟩ := ih hb
    exact ⟨t, List.mem_cons_of_mem _ ht, hkeeps⟩
  | keep happlies hkeeps _ _ ih =>
    cases hb with
    | head => exact ⟨_, List.mem_cons_self, happlies, hkeeps⟩
    | tail _ hb =>
      obtain ⟨t, ht, hkeeps⟩ := ih hb
      exact ⟨t, List.mem_cons_of_mem _ ht, hkeeps⟩

theorem Selects.label_not_mem (h : r.Selects clock seen ts bs) : ∀ b ∈ bs, r.label b ∉ seen := by
  induction h with
  | nil => simp
  | skip _ _ ih => exact ih
  | drop _ _ _ ih => exact ih
  | keep _ _ hlabel _ ih =>
    intro b hb
    cases hb with
    | head => exact hlabel
    | tail _ hb => exact fun hmem => ih b hb (List.mem_cons_of_mem _ hmem)

theorem Selects.nodup_labels (h : r.Selects clock seen ts bs) : (bs.map r.label).Nodup := by
  induction h with
  | nil => simp
  | skip _ _ ih => exact ih
  | drop _ _ _ ih => exact ih
  | keep _ _ _ hrest ih =>
    rw [List.map_cons, List.nodup_cons]
    refine ⟨fun hmem => ?_, ih⟩
    -- A later block with the same label would be found among the labels before it.
    obtain ⟨b, hb, heq⟩ := List.mem_map.mp hmem
    exact hrest.label_not_mem b hb (by simp [heq])

theorem Selects.exists_check (h : r.Selects clock seen ts bs) (ht : t ∈ ts)
    (happlies : t.appliesTo r.platform = true) : ∃ m, r.check t = .ok m := by
  induction h with
  | nil => simp at ht
  | skip hskip _ ih =>
    cases ht with
    | head => simp [happlies] at hskip
    | tail _ ht => exact ih ht
  | drop _ hdrops _ ih =>
    cases ht with
    | head =>
      obtain ⟨m, hcheck, _⟩ := hdrops
      exact ⟨m, hcheck⟩
    | tail _ ht => exact ih ht
  | keep _ hkeeps _ _ ih =>
    cases ht with
    | head =>
      obtain ⟨m, hcheck, _⟩ := hkeeps
      exact ⟨m, hcheck⟩
    | tail _ ht => exact ih ht

end Renderer

namespace Assembler

structure Assembles (a : Assembler ω α β γ) (clock : Clock) (f : Filter) (o : ω) (bs : List β) :
    Prop where
  named : f.name a.platform ≠ ""
  options : a.readOptions (f.name a.platform) (f.options a.platform) = .ok o
  blocks : ((a.renderer (f.name a.platform) o).blocks clock f.terms).result = .ok bs

theorem exists_of_part {a : Assembler ω α β γ} {f : Filter} (h : (a.part clock f).result = .ok p) :
    ∃ o bs, a.Assembles clock f o bs ∧ p = a.assemble (f.name a.platform) o f bs := by
  unfold part at h
  dsimp only at h
  split at h
  . simp [Traced.fail] at h
  . next hnamed =>
    obtain ⟨o, ho, h⟩ := Traced.result_bind_eq_ok.mp h
    obtain ⟨_, _, h⟩ := Traced.result_bind_eq_ok.mp h
    obtain ⟨bs, hbs, h⟩ := Traced.result_bind_eq_ok.mp h
    exact ⟨o, bs, ⟨by simpa using hnamed, ho, hbs⟩, (Traced.result_pure_eq_ok.mp h).symm⟩

end Assembler

theorem Policy.result_build (platform : String) (part : Filter → Traced Fault γ)
    (fs : List Filter) :
    (Policy.build platform part fs).result =
      (fs.filter fun f => (f.target? platform).isSome).mapM fun f => (part f).result := by
  induction fs with
  | nil => rfl
  | cons f fs ih =>
    unfold Policy.build
    split
    . next hnone => rw [ih, List.filter_cons_of_neg (by simp [hnone])]
    . next hsome =>
      rw [List.filter_cons_of_pos (by simp [hsome]), List.mapM_cons, ← ih]
      simp only [Traced.result_bind]
      rfl

theorem Policy.exists_of_mem_build {part : Filter → Traced Fault γ}
    (h : (Policy.build platform part fs).result = .ok ps) (hp : p ∈ ps) :
    ∃ f ∈ fs, (f.target? platform).isSome = true ∧ (part f).result = .ok p := by
  rw [Policy.result_build] at h
  obtain ⟨f, hf, hpart⟩ := (mem_of_mapM_eq_ok h).mp hp
  obtain ⟨hf, htarget⟩ := List.mem_filter.mp hf
  exact ⟨f, hf, htarget, hpart⟩

def epoch : Clock where
  now := ⟨0, 0, 0⟩
  weeks := 2

end PacketPolicy
