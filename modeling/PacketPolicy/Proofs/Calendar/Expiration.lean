import PacketPolicy.Iptables.Document
import PacketPolicy.Proofs.Basic
import PacketPolicy.Proofs.Calendar.Date

namespace PacketPolicy
namespace Expiry

variable {e now later : Moment} {weeks : Nat}

def rank : Expiry → Nat
  | .notExpiring => 0
  | .expiring => 1
  | .expired => 2

instance : LE Expiry := ⟨fun a b => a.rank ≤ b.rank⟩

/--
The last day of the window starts at a second that can be counted.
-/
def WindowFits (now : Moment) (weeks : Nat) : Prop :=
  -(secondCounts : Int) ≤ 2 * ((now.day + 7 * weeks) * 86400)
    ∧ 2 * ((now.day + 7 * weeks) * 86400) < secondCounts

instance (now : Moment) (weeks : Nat) : Decidable (WindowFits now weeks) :=
  inferInstanceAs (Decidable (_ ∧ _))

theorem windowEnd_eq (h : WindowFits now weeks) :
    windowEnd now weeks = (now.day + 7 * weeks) * 86400 := by
  unfold WindowFits secondCounts at h
  unfold windowEnd secondCounts
  apply Int.bmod_eq_of_le
  . omega
  . omega

theorem classify_congr {e' now' : Moment} (he : e'.day = e.day) (hnow : now'.day = now.day)
    (weeks : Int) :
    classify (some e') now' weeks = classify (some e) now weeks := by
  unfold classify windowEnd
  dsimp only
  rw [he, hnow]

theorem classify_eq_expired_iff {weeks : Int} :
    classify (some e) now weeks = .expired ↔ e.day < now.day := by
  unfold classify
  grind

theorem classify_eq_expiring_iff (h : WindowFits now weeks) :
    classify (some e) now weeks = .expiring ↔ now.day ≤ e.day ∧ e.day ≤ now.day + 7 * weeks := by
  simp only [classify, windowEnd_eq h]
  grind

theorem classify_le_of_later (hnow : WindowFits now weeks) (hlater : WindowFits later weeks)
    (h : now.day ≤ later.day) : classify (some e) now weeks ≤ classify (some e) later weeks := by
  cases hclass : classify (some e) now weeks with
  | notExpiring => exact Nat.zero_le _
  | expiring =>
    rw [classify_eq_expiring_iff hnow] at hclass
    by_cases hpast : e.day < later.day
    . rw [classify_eq_expired_iff.mpr hpast]
      exact Nat.le_succ 1
    . rw [(classify_eq_expiring_iff hlater).mpr (by omega)]
      exact Nat.le_refl 1
  | expired =>
    rw [classify_eq_expired_iff] at hclass
    rw [classify_eq_expired_iff.mpr (by omega)]
    exact Nat.le_refl 2

end Expiry

theorem Moment.nonzero?_eq_some {m : Moment} (h : m.isZero = false) : m.nonzero? = some m := by
  simp [nonzero?, h]

theorem Renderer.verdict_eq_expired_iff {r : Renderer α β} :
    r.verdict clock t = .expired ↔
      ∃ m, r.check t = .ok m ∧ Icmp.foreign? r.family t.protocol = none
        ∧ clock.expiry t.expiration = .expired := by
  unfold verdict
  split
  . next hcheck => simp [hcheck]
  . next m hcheck =>
    split
    . next hforeign => simp [Option.isSome_iff_ne_none.mp hforeign]
    . next hforeign =>
      have hforeign : Icmp.foreign? r.family t.protocol = none := by simpa using hforeign
      split
      . next hexpired => simp [hcheck, hforeign, hexpired]
      . next hexpired =>
        have hlive : ¬clock.expiry t.expiration = .expired := hexpired
        split <;> simp [hlive]

theorem Renderer.verdict_expired_of_later {r : Renderer α β} (ht : t.expiration = some e)
    (h : r.verdict clock t = .expired) (hlater : clock.now.day ≤ clock'.now.day) :
    r.verdict clock' t = .expired := by
  rw [verdict_eq_expired_iff, ht] at h ⊢
  obtain ⟨m, hcheck, hforeign, hexpired⟩ := h
  have hpast : e.day < clock.now.day := Expiry.classify_eq_expired_iff.mp hexpired
  refine ⟨m, hcheck, hforeign, ?_⟩
  apply Expiry.classify_eq_expired_iff.mpr
  omega

namespace Expiry

/--
The class of an expiration depends on the dates of the two clocks alone: it has expired if its date
is past, and it is expiring up to the date a number of weeks from now. A later date or a longer
window never makes it less urgent. So a term that is dropped as expired is dropped on every later
date, whatever the window is then.
-/
theorem classify_by_calendar {e now : Moment} {weeks : Nat} (he : e.isZero = false)
    (hnow : WindowFits now weeks) :
    (∀ e' now' : Moment, e'.isZero = false → e'.date = e.date → now'.date = now.date →
        classify e'.nonzero? now' weeks = classify e.nonzero? now weeks)
      ∧ (classify e.nonzero? now weeks = .expired ↔ e.date < now.date)
      ∧ (classify e.nonzero? now weeks = .expiring ↔
        now.date ≤ e.date ∧ e.date ≤ now.date.addDays (7 * weeks))
      ∧ (∀ later, WindowFits later weeks → now.date ≤ later.date →
          classify e.nonzero? now weeks ≤ classify e.nonzero? later weeks)
      ∧ (∀ longer : Nat, weeks ≤ longer → WindowFits now longer →
        classify e.nonzero? now weeks = .expiring →
          classify e.nonzero? now longer = .expiring)
      ∧ ∀ {α β : Type} (r : Renderer α β) t, t.expiration = e.nonzero? →
        r.verdict ⟨now, weeks⟩ t = .expired →
          ∀ clock seen, now.date ≤ clock.now.date →
            r.block clock seen t = ⟨(r.place t).expiration clock .expired, .ok none⟩ := by
  simp only [Moment.nonzero?_eq_some he, Moment.date_inj, Moment.date_lt_iff, Moment.date_le_iff,
    Moment.date_le_addDays_iff]
  refine ⟨?_, classify_eq_expired_iff, ?_, ?_, ?_, ?_⟩
  . intro e' now' he' hday hnow'
    rw [Moment.nonzero?_eq_some he']
    exact classify_congr hday hnow' weeks
  . rw [classify_eq_expiring_iff hnow]
    omega
  . intro later hlater h
    exact classify_le_of_later hnow hlater h
  . intro longer hlonger hfits h
    rw [classify_eq_expiring_iff hnow] at h
    rw [classify_eq_expiring_iff hfits]
    omega
  . intro α β r t ht hverdict clock seen hlater
    have hdropped : r.verdict clock t = .expired :=
      Renderer.verdict_expired_of_later ht hverdict hlater
    simp only [Renderer.block, hdropped]

def leapNight : Moment := ⟨Date.toDays ⟨2024, 2, 29, rfl⟩ * 86400 + 102600, 0, -18000⟩

def yearEnd : Moment := ⟨Date.toDays ⟨2023, 12, 27, rfl⟩ * 86400 + 81000, 0, 7200⟩

def untilLeapNight : Term :=
  { name := "until-leap-night", protocol := ["tcp"], action := .accept,
    expiration := leapNight.nonzero? }

theorem leapNight_by_calendar :
    Moment.read? "2024-02-29T23:30:00-05:00" = some leapNight
      ∧ Moment.read? "2023-12-28T00:30:00+02:00" = some yearEnd
      ∧ leapNight.isZero = false ∧ WindowFits yearEnd 9
      ∧ classify leapNight.nonzero? yearEnd 8 ≠ .expiring
      ∧ classify leapNight.nonzero? yearEnd 9 = .expiring
      ∧ classify leapNight.nonzero? yearEnd 10 = .expiring
      ∧ classify leapNight.nonzero? yearEnd 9
        ≤ classify leapNight.nonzero? (.ofDate ⟨2024, 3, 1, rfl⟩) 9
      ∧ (Iptables.renderer "INPUT" {}).block ⟨.ofDate ⟨2024, 3, 2, rfl⟩, 0⟩ [] untilLeapNight
          = ⟨((Iptables.renderer "INPUT" {}).place untilLeapNight).expiration
            ⟨.ofDate ⟨2024, 3, 2, rfl⟩, 0⟩ .expired, .ok none⟩ := by
  have hnonzero : leapNight.isZero = false := by decide +kernel
  have hfits : WindowFits yearEnd 9 := by decide +kernel
  have hcheck : ((Iptables.renderer "INPUT" {}).check untilLeapNight).toOption.any (fun _ => true)
      = true := by
    decide +kernel
  obtain ⟨_, _, hshort, _⟩ := @classify_by_calendar leapNight yearEnd 8 hnonzero (by decide +kernel)
  obtain ⟨_, _, hexpiring, hlater, hlonger, _⟩ := classify_by_calendar hnonzero hfits
  obtain ⟨_, _, _, _, _, hdropped⟩ :=
    @classify_by_calendar leapNight (.ofDate ⟨2024, 3, 1, rfl⟩) 9 hnonzero (by decide +kernel)
  have hnine := hexpiring.mpr (by decide +kernel)
  refine ⟨by decide +kernel, by decide +kernel, hnonzero, hfits, fun h => ?_, hnine,
    hlonger 10 (by decide) (by decide +kernel) hnine,
      hlater _ (by decide +kernel) (by decide +kernel), ?_⟩
  . exact absurd (hshort.mp h) (by decide +kernel)
  . obtain ⟨m, hm, _⟩ := exists_ok_of_any hcheck
    apply hdropped _ _ rfl _ _ _ (by decide +kernel)
    exact Renderer.verdict_eq_expired_iff.mpr ⟨m, hm, rfl, by decide +kernel⟩

end Expiry
end PacketPolicy
