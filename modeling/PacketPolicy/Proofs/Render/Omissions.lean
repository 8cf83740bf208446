import PacketPolicy.Proofs.Render.Filter

namespace PacketPolicy

namespace Traced

theorem log_bind {x : Traced ε α} {next : α → Traced ε β} (h : x.result = .ok a) :
    (x >>= next).log = x.log ++ (next a).log := by
  show (Traced.bind x next).log = _
  unfold Traced.bind
  rw [h]

theorem log_bind_pure (x : Traced ε α) (g : α → β) : (x >>= fun a => pure (g a)).log = x.log := by
  show (Traced.bind x _).log = _
  unfold Traced.bind
  split
  . rfl
  . exact List.append_nil _

theorem result_bind_pure_eq_ok {x : Traced ε α} {g : α → β} :
    (x >>= fun a => pure (g a)).result = .ok b ↔ ∃ a, x.result = .ok a ∧ g a = b := by
  simp only [result_bind_eq_ok, result_pure_eq_ok]

end Traced

namespace Place

def omissions (p : Place) : List String :=
  ["Term " ++ p.term ++ " will not be rendered",
    "Term " ++ p.term ++ " in policy " ++ p.filter ++ " is expired and will not be rendered"]

def omits (p : Place) (e : Log.Entry) : Bool :=
  e.fields == p.fields && p.omissions.any fun words => words.toList.isPrefixOf e.message.toList

/--
The entries about the term at a place: all of them name it, and exactly one tells of a term that is
omitted.
-/
structure Reports (p : Place) (omitted : Prop) (entries : List Log.Entry) : Prop where
  placed : ∀ e ∈ entries, e.fields = p.fields
  once : omitted → entries.countP p.omits = 1
  never : ¬omitted → entries.countP p.omits = 0

variable (p : Place) (clock : Clock)

theorem omits_foreignProtocol (f : Family) (protocols : List String) :
    p.omits (p.foreignProtocol f protocols) = true := by
  simp [omits, omissions, foreignProtocol]

theorem omits_noAddresses (f : Family) (side : Side) : p.omits (p.noAddresses f side) = true := by
  simp [omits, omissions, noAddresses]

theorem countP_expiration (e : Expiry) :
    (p.expiration clock e).countP p.omits = if e = .expired then 1 else 0 := by
  cases e with
  | notExpiring => rfl
  | expiring => simp [expiration, Expiry.log, Log.Entry.within, omits, omissions]
  | expired => simp [expiration, Expiry.log, Log.Entry.within, omits, omissions, fields]

theorem fields_of_mem_expiration (h : entry ∈ p.expiration clock e) : entry.fields = p.fields := by
  cases e with
  | notExpiring => simp [expiration, Expiry.log] at h
  | expiring =>
    simp only [expiration, Expiry.log, List.map_cons, List.map_nil, List.mem_singleton] at h
    rw [h]
    rfl
  | expired =>
    simp only [expiration, Expiry.log, List.map_cons, List.map_nil, List.mem_singleton] at h
    rw [h]
    rfl

end Place

namespace Renderer

variable {r : Renderer α β} {clock : Clock}

def selects (r : Renderer α β) (clock : Clock) (t : Term) : Bool :=
  t.appliesTo r.platform && (Icmp.foreign? r.family t.protocol).isNone
    && clock.expiry t.expiration != .expired

theorem Keeps.selects_eq (h : r.Keeps clock t b) (happlies : t.appliesTo r.platform = true) :
    r.selects clock t = true := by
  obtain ⟨m, _, hforeign, hexpiry, _⟩ := h
  simp [selects, happlies, hforeign, hexpiry]

theorem Drops.selects_eq (h : r.Drops clock t) : r.selects clock t = false := by
  obtain ⟨m, _, hdrops⟩ := h
  cases hdrops with
  | inl hforeign => simp [selects, hforeign]
  | inr hexpired => simp [selects, hexpired]

theorem Keeps.eq (h : r.Keeps clock t b) (h' : r.Keeps clock t b') : b = b' := by
  obtain ⟨m, hcheck, _, _, hfinish⟩ := h
  obtain ⟨m', hcheck', _, _, hfinish'⟩ := h'
  obtain rfl : m = m' := Except.ok.inj (hcheck.symm.trans hcheck')
  exact Except.ok.inj (hfinish.symm.trans hfinish')

theorem Selects.forall₂_keeps (h : r.Selects clock seen ts bs) :
    List.Forall₂ (r.Keeps clock) (ts.filter (r.selects clock)) bs := by
  induction h with
  | nil => exact .nil
  | skip hskip _ ih =>
    rw [List.filter_cons_of_neg (by simp [selects, hskip])]
    exact ih
  | drop _ hdrops _ ih =>
    rw [List.filter_cons_of_neg (by simp [hdrops.selects_eq])]
    exact ih
  | keep happlies hkeeps _ _ ih =>
    rw [List.filter_cons_of_pos (hkeeps.selects_eq happlies)]
    exact .cons hkeeps ih

theorem Selects.nodup_selected (h : r.Selects clock seen ts bs) :
    (ts.filter (r.selects clock)).Nodup := by
  induction h with
  | nil => simp
  | skip hskip _ ih =>
    rw [List.filter_cons_of_neg (by simp [selects, hskip])]
    exact ih
  | drop _ hdrops _ ih =>
    rw [List.filter_cons_of_neg (by simp [hdrops.selects_eq])]
    exact ih
  | @keep t b seen ts bs happlies hkeeps _ hrest ih =>
    rw [List.filter_cons_of_pos (hkeeps.selects_eq happlies), List.nodup_cons]
    refine ⟨fun hmem => ?_, ih⟩
    -- A term that comes back would be given the same block, and with it the same label.
    obtain ⟨b', hb', hkeeps'⟩ : ∃ b' ∈ bs, r.Keeps clock t b' := by
      obtain ⟨i, hi, ht⟩ := List.mem_iff_getElem.mp hmem
      have hi' : i < bs.length := hrest.forall₂_keeps.length_eq ▸ hi
      refine ⟨bs[i], List.getElem_mem hi', ?_⟩
      rw [← ht]
      exact hrest.forall₂_keeps.get hi hi'
    obtain rfl := hkeeps.eq hkeeps'
    exact hrest.label_not_mem b hb' List.mem_cons_self

def report (r : Renderer α β) (clock : Clock) (t : Term) : List Log.Entry :=
  if t.appliesTo r.platform = false then []
  else if (Icmp.foreign? r.family t.protocol).isSome then
    [(r.place t).foreignProtocol r.family t.protocol]
  else
    (r.place t).expiration clock (clock.expiry t.expiration)
      ++ if clock.expiry t.expiration = .expired then [] else r.emptyLog t

theorem report_of_verdict (r : Renderer α β) (clock : Clock)
    (happlies : t.appliesTo r.platform = true) :
    match r.verdict clock t with
    | .foreign => r.report clock t = [(r.place t).foreignProtocol r.family t.protocol]
    | .expired => r.report clock t = (r.place t).expiration clock .expired
    | .kept expiry _ => r.report clock t = (r.place t).expiration clock expiry ++ r.emptyLog t
    | _ => True := by
  unfold report
  rw [if_neg (by simp [happlies])]
  unfold verdict
  cases r.check t with
  | error e => trivial
  | ok m =>
    by_cases hforeign : (Icmp.foreign? r.family t.protocol).isSome = true
    . simp [hforeign]
    . simp only [hforeign]
      cases clock.expiry t.expiration with
      | expired => simp
      | notExpiring => cases r.finish t m <;> simp
      | expiring => cases r.finish t m <;> simp

theorem log_block (h : (r.block clock seen t).result = .ok b?)
    (happlies : t.appliesTo r.platform = true) :
    (r.block clock seen t).log = r.report clock t := by
  have hreport := r.report_of_verdict clock happlies
  unfold block at h ⊢
  split at h
  . simp [Traced.fail] at h
  . next hverdict => simp_all
  . next hverdict => simp_all
  . simp at h
  . next hverdict =>
    split at h
    . simp at h
    . next hseen => simp_all

theorem log_blocksFrom (h : (r.blocksFrom clock seen ts).result = .ok bs) :
    (r.blocksFrom clock seen ts).log = ts.flatMap (r.report clock) := by
  induction ts generalizing seen bs with
  | nil => rfl
  | cons t ts ih =>
    rw [List.flatMap_cons]
    unfold blocksFrom at h ⊢
    split at h
    . next happlies =>
      rw [if_pos happlies]
      obtain ⟨b?, hb, h⟩ := Traced.result_bind_eq_ok.mp h
      rw [Traced.log_bind hb, log_block hb happlies]
      cases b? with
      | none => rw [ih h]
      | some b =>
        obtain ⟨bs', hbs', _⟩ := Traced.result_bind_eq_ok.mp h
        rw [Traced.log_bind_pure, ih hbs']
    . next happlies =>
      rw [if_neg happlies, ih h]
      simp [report, happlies]

def Omits (r : Renderer α β) (clock : Clock) (t : Term) : Prop :=
  t.appliesTo r.platform = true
    ∧ (Icmp.foreign? r.family t.protocol ≠ none ∨ clock.expiry t.expiration = .expired
      ∨ (t.isVerbatim = false ∧ r.emptySide t ≠ none))

theorem reports_emptyLog (r : Renderer α β) (t : Term) :
    (r.place t).Reports (t.isVerbatim = false ∧ r.emptySide t ≠ none) (r.emptyLog t) := by
  unfold emptyLog
  split
  . next hverbatim => exact ⟨by simp, by simp [hverbatim], by simp⟩
  . next hverbatim =>
    split
    . next hnone => exact ⟨by simp, by simp [hnone], by simp⟩
    . next side hside =>
      refine ⟨?_, ?_, ?_⟩
      . simp [Place.noAddresses]
      . simp [Place.omits_noAddresses]
      . simp [hverbatim, hside]

theorem reports_report (r : Renderer α β) (clock : Clock) (t : Term) :
    (r.place t).Reports (r.Omits clock t) (r.report clock t) := by
  unfold report Omits
  split
  . next happlies => exact ⟨by simp, by simp [happlies], by simp⟩
  . next happlies =>
    split
    . next hforeign =>
      refine ⟨?_, ?_, ?_⟩
      . simp [Place.foreignProtocol]
      . simp [Place.omits_foreignProtocol]
      . intro hnot
        exact absurd ⟨by simpa using happlies, .inl (Option.isSome_iff_ne_none.mp hforeign)⟩ hnot
    . next hforeign =>
      have hempty := r.reports_emptyLog t
      have hcount := (r.place t).countP_expiration clock (clock.expiry t.expiration)
      by_cases hexpired : clock.expiry t.expiration = .expired
      . simp only [hexpired, ↓reduceIte] at hcount
        rw [if_pos hexpired, List.append_nil, hexpired]
        refine ⟨fun e he => Place.fields_of_mem_expiration _ _ he, fun _ => hcount, fun hnot => ?_⟩
        exact absurd ⟨by simpa using happlies, .inr (.inl rfl)⟩ hnot
      . -- The entry about the expiration tells of no omission, so that the one about the addresses
        -- decides.
        rw [if_neg hexpired] at hcount ⊢
        refine ⟨fun e he => ?_, fun homitted => ?_, fun hnot => ?_⟩
        . obtain he | he := List.mem_append.mp he
          . exact Place.fields_of_mem_expiration _ _ he
          . exact hempty.placed e he
        . have hnone : Icmp.foreign? r.family t.protocol = none := by simpa using hforeign
          rw [List.countP_append, hcount,
            hempty.once ((homitted.2.resolve_left (by simp [hnone])).resolve_left hexpired)]
        . rw [List.countP_append, hcount,
            hempty.never fun h => hnot ⟨by simpa using happlies, .inr (.inr h)⟩]

end Renderer

theorem Assembler.log_part {a : Assembler ω α β γ} (h : a.Assembles clock f o bs) :
    (a.part clock f).log = a.notices (f.name a.platform)
      ++ f.terms.flatMap ((a.renderer (f.name a.platform) o).report clock) := by
  have hoptions :
      (Traced.ofExcept (a.readOptions (f.name a.platform) (f.options a.platform))).result = .ok o :=
    h.options
  have hnotices : (Traced.tell (a.notices (f.name a.platform)) : Traced Fault Unit).result
      = .ok () :=
    rfl
  unfold part
  simp only [beq_iff_eq, h.named, ↓reduceIte]
  rw [Traced.log_bind hoptions, Traced.log_bind hnotices, Traced.log_bind_pure, Renderer.blocks,
    Renderer.log_blocksFrom h.blocks]
  rfl

theorem Policy.log_build {part : Filter → Traced Fault γ}
    (h : (Policy.build platform part fs).result = .ok ps) :
    (Policy.build platform part fs).log =
      (fs.filter fun f => (f.target? platform).isSome).flatMap fun f => (part f).log := by
  induction fs generalizing ps with
  | nil => rfl
  | cons f fs ih =>
    unfold Policy.build at h ⊢
    split at h
    . next hnone => rw [ih h, List.filter_cons_of_neg (by simp [hnone])]
    . next hsome =>
      obtain ⟨p, hp, h⟩ := Traced.result_bind_eq_ok.mp h
      obtain ⟨ps', hps', _⟩ := Traced.result_bind_eq_ok.mp h
      rw [List.filter_cons_of_pos (by simp [hsome]), List.flatMap_cons, Traced.log_bind hp,
        Traced.log_bind_pure, ih hps']

end PacketPolicy
