import Mathlib.Data.List.Chain
import PacketPolicy.Proofs.Basic
import PacketPolicy.Proofs.Text.Plain

namespace PacketPolicy
namespace Text

def Unbroken (s : String) : Prop :=
  ∀ c ∈ s.toList, isBlank c = false

-- The instance is spelled out, so that the characters of the text are tested and not all that there
-- are.
instance (s : String) : Decidable (Unbroken s) :=
  List.decidableBAll (isBlank · = false) s.toList

theorem Plain.unbroken (h : Plain s) : Unbroken s := by
  intro c hc
  exact not_isBlank_of_isPlain (h.2 c hc)

theorem Unbroken.newline_not_mem (h : Unbroken s) : '\n' ∉ s.toList := by
  intro hmem
  exact absurd (h _ hmem) (by decide)

theorem Unbroken.append (hs : Unbroken s) (ht : Unbroken t) : Unbroken (s ++ t) := by
  unfold Unbroken
  rw [String.toList_append, List.forall_mem_append]
  exact ⟨hs, ht⟩

theorem wordsOfChars_go_of_unbroken (h : ∀ c ∈ cs, isBlank c = false) (hne : word ≠ [] ∨ cs ≠ []) :
    wordsOfChars.go cs word = [word.reverse ++ cs] := by
  induction cs generalizing word with
  | nil =>
    obtain ⟨c, word, rfl⟩ := List.exists_cons_of_ne_nil (hne.resolve_right fun h => h rfl)
    rw [List.append_nil]
    rfl
  | cons c cs ih =>
    rw [List.forall_mem_cons] at h
    unfold wordsOfChars.go
    rw [if_neg (by simp [h.1]), ih h.2 (.inl (by simp))]
    simp

theorem words_of_unbroken (h : Unbroken s) (hne : s ≠ "") : words s = [s] := by
  unfold words wordsOfChars
  rw [wordsOfChars_go_of_unbroken h (.inr (mt String.toList_eq_nil_iff.mp hne))]
  simp

theorem wordsOfChars_go_append (h : isBlank c = true) (cs ds word : List Char) :
    wordsOfChars.go (cs ++ c :: ds) word = wordsOfChars.go cs word ++ wordsOfChars.go ds [] := by
  induction cs generalizing word with
  | nil =>
    rw [List.nil_append, wordsOfChars.go.eq_def]
    simp only [h, ↓reduceIte]
    cases word <;> rfl
  | cons d cs ih =>
    rw [List.cons_append, wordsOfChars.go.eq_def, wordsOfChars.go.eq_def (d :: cs)]
    dsimp only
    split
    . cases word with
      | nil => exact ih []
      | cons e word => exact congrArg _ (ih [])
    . exact ih (d :: word)

theorem wordsOfChars_go_cons (h : isBlank c = true) (cs : List Char) :
    wordsOfChars.go (c :: cs) [] = wordsOfChars.go cs [] :=
  wordsOfChars_go_append h [] cs []

theorem wordsOfChars_go_first (h : ∀ c ∈ w, isBlank c = false) (hne : w ≠ [])
    (hend : ∀ c ∈ cs.head?, isBlank c = true) :
    wordsOfChars.go (w ++ cs) [] = w :: wordsOfChars.go cs [] := by
  have hone : wordsOfChars.go w [] = [w] := wordsOfChars_go_of_unbroken h (.inr hne)
  cases cs with
  | nil =>
    rw [List.append_nil, hone]
    rfl
  | cons c cs =>
    have hc : isBlank c = true := hend c (by simp)
    rw [wordsOfChars_go_append hc, wordsOfChars_go_cons hc, hone, List.singleton_append]

/--
The words of a text, in order. A word goes up to white space or to the end of the text.
-/
inductive Worded : List Char → List String → Prop where
  | nil : Worded [] []
  | blank : isBlank c = true → Worded cs ws → Worded (c :: cs) ws
  | word : Unbroken w → w ≠ "" → (∀ c ∈ cs.head?, isBlank c = true) → Worded cs ws →
    Worded (w.toList ++ cs) (w :: ws)

theorem Worded.first (h : ∀ c ∈ w, isBlank c = false) (hne : w ≠ [])
    (hend : ∀ c ∈ cs.head?, isBlank c = true) (hrest : Worded cs ws) :
    Worded (w ++ cs) (String.ofList w :: ws) := by
  have hword : Unbroken (String.ofList w) := by simpa [Unbroken] using h
  simpa using Worded.word hword (by simpa using hne) hend hrest

/--
Invariant of the division into words: the word so far, kept in reverse, has no white space.
-/
theorem worded_go (hword : ∀ c ∈ word, isBlank c = false) :
    Worded (word.reverse ++ cs) ((wordsOfChars.go cs word).map String.ofList) := by
  have hreverse {w : List Char} (h : ∀ c ∈ w, isBlank c = false) :
      ∀ c ∈ w.reverse, isBlank c = false :=
    fun c hc => h c (List.mem_reverse.mp hc)
  fun_induction wordsOfChars.go cs word with
  | case1 => exact .nil
  | case2 word hne => exact .first (hreverse hword) (by simpa using hne) (by simp) .nil
  | case3 c cs hc ih => exact .blank hc (ih (by simp))
  | case4 c cs hc word hne ih =>
    exact .first (hreverse hword) (by simpa using hne) (by simpa using hc)
      (.blank hc (ih (by simp)))
  | case5 c cs word hc ih => simpa using ih (List.forall_mem_cons.mpr ⟨by simpa using hc, hword⟩)

theorem words_eq_iff : words s = ws ↔ Worded s.toList ws := by
  constructor
  . rintro rfl
    exact @worded_go [] s.toList (by simp)
  . unfold words wordsOfChars
    generalize s.toList = cs
    intro h
    induction h with
    | nil => rfl
    | blank hc _ ih => rw [wordsOfChars_go_cons hc, ih]
    | word hw hne hend _ ih =>
      rw [wordsOfChars_go_first hw (mt String.toList_eq_nil_iff.mp hne) hend, List.map_cons, ih,
        String.ofList_toList]

theorem Worded.unbroken (h : Worded cs ws) (hw : w ∈ ws) :
    (Unbroken w ∧ w ≠ "") ∧ ∀ c ∈ w.toList, c ∈ cs := by
  induction h with
  | nil => simp at hw
  | blank _ _ ih =>
    obtain ⟨hword, hmem⟩ := ih hw
    exact ⟨hword, fun c hc => List.mem_cons_of_mem _ (hmem c hc)⟩
  | word hfirst hne _ _ ih =>
    obtain rfl | hw := List.mem_cons.mp hw
    . exact ⟨⟨hfirst, hne⟩, fun c hc => List.mem_append_left _ hc⟩
    . obtain ⟨hword, hmem⟩ := ih hw
      exact ⟨hword, fun c hc => List.mem_append_right _ (hmem c hc)⟩

theorem worded_nil_iff {cs : List Char} : Worded cs [] ↔ ∀ c ∈ cs, isBlank c = true := by
  constructor
  . intro h
    generalize hnone : ([] : List String) = ws at h
    induction h with
    | nil => simp
    | blank hc _ ih => exact List.forall_mem_cons.mpr ⟨hc, ih hnone⟩
    | word => simp at hnone
  . intro h
    induction cs with
    | nil => exact .nil
    | cons c cs ih =>
      rw [List.forall_mem_cons] at h
      exact .blank h.1 (ih h.2)

theorem unbroken_of_mem_words (h : w ∈ words s) :
    (Unbroken w ∧ w ≠ "") ∧ ∀ c ∈ w.toList, c ∈ s.toList :=
  (words_eq_iff.mp rfl).unbroken h

theorem mem_squeeze (h : c ∈ (squeeze s).toList) :
    c = ' ' ∨ (c ∈ s.toList ∧ isBlank c = false) := by
  rw [squeeze, String.toList_intercalate] at h
  obtain hspace | ⟨_, hpart, hc⟩ := mem_intercalate h
  . exact .inl (List.mem_singleton.mp hspace)
  . obtain ⟨w, hw, rfl⟩ := List.mem_map.mp hpart
    obtain ⟨⟨hword, _⟩, hmem⟩ := unbroken_of_mem_words hw
    exact .inr ⟨hmem c hc, hword c hc⟩

theorem words_append_space (s t : String) : words (s ++ " " ++ t) = words s ++ words t := by
  unfold words wordsOfChars
  have hchars : (s ++ " " ++ t).toList = s.toList ++ ' ' :: t.toList := by simp
  rw [hchars, wordsOfChars_go_append (by decide), List.map_append]

theorem words_intercalate (ss : List String) :
    words (String.intercalate " " ss) = ss.flatMap words := by
  induction ss with
  | nil => rfl
  | cons s ss ih =>
    by_cases hnil : ss = []
    . simp [hnil]
    . rw [String.intercalate_cons_of_ne_nil hnil, words_append_space, ih, List.flatMap_cons]

theorem flatMap_words {ss : List String} (h : ∀ s ∈ ss, Unbroken s ∧ s ≠ "") :
    ss.flatMap words = ss := by
  induction ss with
  | nil => rfl
  | cons s ss ih =>
    rw [List.forall_mem_cons] at h
    rw [List.flatMap_cons, words_of_unbroken h.1.1 h.1.2, List.singleton_append, ih h.2]

theorem words_intercalate_of_unbroken {ss : List String} (h : ∀ s ∈ ss, Unbroken s ∧ s ≠ "") :
    words (String.intercalate " " ss) = ss := by
  rw [words_intercalate, flatMap_words h]

theorem unbroken_of_plain {ss : List String} (h : ∀ s ∈ ss, Plain s) :
    ∀ s ∈ ss, Unbroken s ∧ s ≠ "" :=
  fun s hs => ⟨(h s hs).unbroken, (h s hs).1⟩

theorem words_intercalate_of_plain (h : ∀ s ∈ ss, Plain s) :
    words (String.intercalate " " ss) = ss :=
  words_intercalate_of_unbroken (unbroken_of_plain h)

/--
No white space at either end, and nowhere two characters of it next to each other.
-/
structure Tight (s : String) : Prop where
  first : ∀ c ∈ s.toList.head?, isBlank c = false
  last : ∀ c ∈ s.toList.getLast?, isBlank c = false
  apart : s.toList.IsChain fun c d => isBlank c = false ∨ isBlank d = false

theorem Unbroken.tight (h : Unbroken s) : Tight s := by
  constructor
  . intro c hc
    exact h c (List.mem_of_mem_head? hc)
  . intro c hc
    exact h c (List.mem_of_mem_getLast? hc)
  . apply List.Pairwise.isChain
    apply List.pairwise_of_forall_mem_list
    intro c hc d _
    exact .inl (h c hc)

theorem Tight.append_space (hs : Tight s) (ht : Tight t) (hsne : s ≠ "") (htne : t ≠ "") :
    Tight (s ++ " " ++ t) := by
  have hchars : (s ++ " " ++ t).toList = s.toList ++ ([' '] ++ t.toList) := by simp
  have hscons : s.toList ≠ [] := mt String.toList_eq_nil_iff.mp hsne
  have htcons : t.toList ≠ [] := mt String.toList_eq_nil_iff.mp htne
  constructor
  . rw [hchars, List.head?_append_of_ne_nil _ hscons]
    exact hs.first
  . rw [hchars, List.getLast?_append_of_ne_nil _ (by simp), List.getLast?_append_of_ne_nil _ htcons]
    exact ht.last
  . rw [hchars]
    apply hs.apart.append
    . apply (List.isChain_singleton ' ').append ht.apart
      intro c _ d hd
      exact .inr (ht.first d hd)
    . intro c hc d _
      exact .inl (hs.last c hc)

theorem intercalate_ne_empty_of_unbroken (hne : ss ≠ []) (h : ∀ s ∈ ss, Unbroken s ∧ s ≠ "") :
    String.intercalate " " ss ≠ "" := by
  intro hempty
  have hwords := words_intercalate_of_unbroken h
  rw [hempty] at hwords
  exact hne hwords.symm

theorem intercalate_space_ne_empty (hne : ss ≠ []) (h : ∀ s ∈ ss, Plain s) :
    String.intercalate " " ss ≠ "" :=
  intercalate_ne_empty_of_unbroken hne (unbroken_of_plain h)

theorem tight_intercalate_of_unbroken (h : ∀ s ∈ ss, Unbroken s ∧ s ≠ "") :
    Tight (String.intercalate " " ss) := by
  induction ss with
  | nil => exact Unbroken.tight (by decide)
  | cons s ss ih =>
    rw [List.forall_mem_cons] at h
    by_cases hnil : ss = []
    . rw [hnil, String.intercalate_singleton]
      exact h.1.1.tight
    . rw [String.intercalate_cons_of_ne_nil hnil]
      exact h.1.1.tight.append_space (ih h.2) h.1.2 (intercalate_ne_empty_of_unbroken hnil h.2)

theorem tight_squeeze (s : String) : Tight (squeeze s) :=
  tight_intercalate_of_unbroken fun _ hw => (unbroken_of_mem_words hw).1

theorem squeeze_eq_empty_iff : squeeze s = "" ↔ ∀ c ∈ s.toList, isBlank c = true := by
  rw [← worded_nil_iff, ← words_eq_iff, squeeze]
  constructor
  . intro h
    by_contra hne
    exact intercalate_ne_empty_of_unbroken hne (fun _ hw => (unbroken_of_mem_words hw).1) h
  . intro h
    rw [h]
    rfl

theorem tight_intercalate (h : ∀ s ∈ ss, Plain s) : Tight (String.intercalate " " ss) :=
  tight_intercalate_of_unbroken (unbroken_of_plain h)

end Text
end PacketPolicy
