import PacketPolicy.Proofs.Text.Bytes
import PacketPolicy.Proofs.Text.Unbroken
import PacketPolicy.Render.TermName

namespace PacketPolicy

open Text (isBlank isPlain Plain Unbroken)

namespace TermName

variable {P : Char → Prop}

theorem forall_mem_replaceFrom (hshort : ∀ c ∈ short, P c) (hname : ∀ c ∈ name, P c) :
    ∀ c ∈ replaceFrom word short skip name, P c := by
  fun_induction replaceFrom word short skip name with
  | case1 => simp
  | case2 c cs _ ih =>
    rw [List.forall_mem_cons] at hname
    rw [List.forall_mem_append]
    exact ⟨hshort, ih hname.2⟩
  | case3 c cs _ ih =>
    rw [List.forall_mem_cons] at hname ⊢
    exact ⟨hname.1, ih hname.2⟩
  | case4 skip c cs ih =>
    rw [List.forall_mem_cons] at hname
    exact ih hname.2

theorem replaceFrom_ne_nil (hshort : short ≠ []) (hname : name ≠ []) :
    replaceFrom word short 0 name ≠ [] := by
  cases name with
  | nil => exact absurd rfl hname
  | cons c cs =>
    rw [replaceFrom]
    split
    . simp [hshort]
    . simp

theorem forall_mem_abbreviate (hshort : ∀ e ∈ abbreviations, ∀ c ∈ e.2.toList, P c)
    (hname : ∀ c ∈ name.toList, P c) :
    ∀ c ∈ (abbreviate name).toList, P c := by
  rw [abbreviate, String.toList_ofList, abbreviateChars]
  generalize abbreviations = entries at hshort
  generalize name.toList = chars at hname
  induction entries generalizing chars with
  | nil => exact hname
  | cons e entries ih =>
    rw [List.forall_mem_cons] at hshort
    apply ih hshort.2
    exact forall_mem_replaceFrom hshort.1 hname

theorem abbreviate_ne_empty (h : name ≠ "") : abbreviate name ≠ "" := by
  have hshort : ∀ e ∈ abbreviations, e.2 ≠ "" := by decide
  rw [ne_eq, ← String.toList_eq_nil_iff] at h ⊢
  rw [abbreviate, String.toList_ofList, abbreviateChars]
  generalize abbreviations = entries at hshort
  generalize name.toList = chars at h
  induction entries generalizing chars with
  | nil => exact h
  | cons e entries ih =>
    rw [List.forall_mem_cons] at hshort
    apply ih hshort.2
    exact replaceFrom_ne_nil (mt String.toList_eq_nil_iff.mp hshort.1) h

theorem plain_abbreviate (h : Plain name) : Plain (abbreviate name) := by
  have hshort : ∀ e ∈ abbreviations, Plain e.2 := by decide
  exact ⟨abbreviate_ne_empty h.1, forall_mem_abbreviate (fun e he => (hshort e he).2) h.2⟩

theorem plain_truncate (hsize : 0 < size) (h : Plain name) : Plain (Text.truncate name size) := by
  obtain ⟨c, cs, hcs⟩ := List.exists_cons_of_ne_nil (mt String.toList_eq_nil_iff.mp h.1)
  have hbytes : c.utf8Size ≤ size := by
    rw [Text.utf8Size_of_isPlain (h.2 c (hcs ▸ List.mem_cons_self))]
    omega
  apply Text.plain_ofList
  . rw [hcs, Text.takeBytes, if_pos hbytes]
    simp
  . intro d hd
    exact h.2 d (Text.mem_of_mem_takeBytes hd)

theorem plain_of_fit (hsize : 0 < size) (h : Plain name)
    (hfit : fit size allowed name = .ok shorter) :
    Plain shorter := by
  have habbreviated : Plain (if allowed.abbreviate then abbreviate name else name) := by
    split
    . exact plain_abbreviate h
    . exact h
  unfold fit at hfit
  dsimp only at hfit
  generalize (if allowed.abbreviate then abbreviate name else name)
    = abbreviated at hfit habbreviated
  split at hfit
  . cases hfit
    exact h
  . split at hfit
    . cases hfit
      exact habbreviated
    . split at hfit
      . cases hfit
        exact plain_truncate hsize habbreviated
      . cases hfit

theorem forall_mem_of_fit (hshort : ∀ e ∈ abbreviations, ∀ c ∈ e.2.toList, P c)
    (hname : ∀ c ∈ name.toList, P c) (hfit : fit size allowed name = .ok shorter) :
    ∀ c ∈ shorter.toList, P c := by
  have habbreviated : ∀ c ∈ (if allowed.abbreviate then abbreviate name else name).toList, P c := by
    split
    . exact forall_mem_abbreviate hshort hname
    . exact hname
  unfold fit at hfit
  dsimp only at hfit
  generalize (if allowed.abbreviate then abbreviate name else name)
    = abbreviated at hfit habbreviated
  split at hfit
  . cases hfit
    exact hname
  . split at hfit
    . cases hfit
      exact habbreviated
    . split at hfit
      . cases hfit
        rw [Text.truncate, String.toList_ofList]
        intro c hc
        exact habbreviated c (Text.mem_of_mem_takeBytes hc)
      . cases hfit

theorem unbroken_of_fit (h : Unbroken name) (hfit : fit size allowed name = .ok shorter) :
    Unbroken shorter := by
  have hshort : ∀ e ∈ abbreviations, Unbroken e.2 := by decide
  exact forall_mem_of_fit hshort h hfit

end TermName

namespace TaggedName

theorem tagChar_of_ascii (hfilter : filter.toList = c :: cs) (hascii : c.toNat < 0x80) :
    (ofFilter filter label).tagChar = c := by
  simp [tagChar, ofFilter, Text.bytesOfText, hfilter, Text.bytesOfChar, hascii]

theorem plain_text_ofFilter (hfilter : Plain filter) (hlabel : Plain label) :
    Plain (ofFilter filter label).text := by
  obtain ⟨c, cs, hcs⟩ := List.exists_cons_of_ne_nil (mt String.toList_eq_nil_iff.mp hfilter.1)
  have hc : isPlain c = true := hfilter.2 c (hcs ▸ List.mem_cons_self)
  have hascii : c.toNat < 0x80 := by
    simp only [isPlain, Bool.and_eq_true, decide_eq_true_eq] at hc
    omega
  rw [text, tagChar_of_ascii hcs hascii]
  apply Plain.append
  . apply Text.plain_ofList
    . simp
    . simp only [List.forall_mem_cons, List.not_mem_nil, false_imp_iff, implies_true, and_true]
      exact ⟨hc, by decide⟩
  . exact hlabel

/--
The tag is the first character of the filter, or stands for one beyond ASCII.
-/
theorem unbroken_text_ofFilter (hne : filter ≠ "") (hfilter : Unbroken filter)
    (hlabel : Unbroken label) :
    Unbroken (ofFilter filter label).text := by
  obtain ⟨c, cs, hcs⟩ := List.exists_cons_of_ne_nil (mt String.toList_eq_nil_iff.mp hne)
  have hc : isBlank c = false := hfilter c (hcs ▸ List.mem_cons_self)
  have htag : isBlank (ofFilter filter label).tagChar = false := by
    by_cases hascii : c.toNat < 0x80
    . rw [tagChar_of_ascii hcs hascii]
      exact hc
    . have hbyte : ¬(ofFilter filter label).tag < 0x80 := by
        simp only [ofFilter, Text.bytesOfText, hcs, List.flatMap_cons, Text.bytesOfChar,
          hascii, ↓reduceIte]
        split
        . simp only [List.cons_append, List.headD_cons]
          omega
        . split <;> simp only [List.cons_append, List.headD_cons] <;> omega
      rw [tagChar, if_neg hbyte]
      decide
  rw [text]
  apply Unbroken.append
  . unfold Unbroken
    rw [String.toList_ofList]
    simp only [List.forall_mem_cons, List.not_mem_nil, false_imp_iff, implies_true, and_true]
    exact ⟨htag, by decide⟩
  . exact hlabel

end TaggedName
end PacketPolicy
