-- SUMMARY: The conversion of domain names label by label keeps the rules that addresses rely on.
import Mathlib
import Telemetry.Proofs.Url.Name
import Telemetry.Proofs.Url.Punycode

/-!
# The conversion label by label

Bringing a name to ASCII is done once and for all. What a character is mapped to is left alone by the
mapping, a label in Punycode denotes the label that it was made from, and every other label is the result of
its own conversion. So a name in ASCII is read as itself, and it holds no character that would end it: the
conversion that programs run with is one of those that addresses may be read with.
-/

namespace Telemetry

namespace Url.Domain

/-! ## The mapping of characters -/

/-- The code points that have a rule of the mapping to themselves. -/
def foldedAlone : List Nat :=
  [0x3002, 0xff0e, 0xff61, 0x130, 0x178, 0x17f, 0x1e9e, 0xaa, 0xba, 0xb2, 0xb3, 0xb5, 0xb9, 0x212a,
    0x212b]

/-- No rule of the mapping is about the code point. -/
def IsSettled (n : Nat) : Prop :=
  isIgnored n = false ∧ n ∉ foldedAlone ∧ (n < 0xff01 ∨ 0xff5e < n) ∧ isUpperOfPair n = false ∧
    fixedOffset? n = none

instance : DecidablePred IsSettled :=
  fun _ => instDecidableAnd

theorem mapChar_of_settled {c : Char} (h : IsSettled c.toNat) : mapChar c = [c] := by
  obtain ⟨hkept, halone, hwide, hpair, hoffset⟩ := h
  simp only [foldedAlone, List.mem_cons, List.not_mem_nil, or_false, not_or] at halone
  unfold mapChar
  simp only [hkept, hpair, hoffset, halone, Bool.or_eq_true, Bool.and_eq_true, decide_eq_true_eq,
    Bool.false_eq_true, if_false, or_self]
  rw [if_neg (by omega)]

theorem fixedOffset?_eq_none {n : Nat} (hlatin : n < 0x41 ∨ 0x5a < n) (haccent : n < 0xc0 ∨ 0xde < n)
    (hgreek : n < 0x386 ∨ 0x3a9 < n) (hcyrillic : n < 0x400 ∨ 0x42f < n)
    (harmenian : n < 0x531 ∨ 0x556 < n) : fixedOffset? n = none := by
  unfold fixedOffset?
  simp only [Bool.and_eq_true, Bool.or_eq_true, decide_eq_true_eq]
  repeat rw [if_neg (by omega)]

theorem lt_of_isUpperOfPair {n : Nat} (h : isUpperOfPair n = true) : n < 0x1eff := by
  simp only [isUpperOfPair, Bool.and_eq_true, Bool.or_eq_true, decide_eq_true_eq] at h
  omega

theorem isSettled_succ {n : Nat} (h : isUpperOfPair n = true) : IsSettled (n + 1) := by
  simp only [isUpperOfPair, Bool.and_eq_true, Bool.or_eq_true, decide_eq_true_eq] at h
  refine ⟨?_, ?_, by omega, ?_, ?_⟩
  · simp only [isIgnored, Bool.or_eq_false_iff, Bool.and_eq_false_iff, decide_eq_false_iff_not]
    omega
  · simp only [foldedAlone, List.mem_cons, List.not_mem_nil, or_false, not_or]
    omega
  · simp only [isUpperOfPair, Bool.or_eq_false_iff, Bool.and_eq_false_iff, decide_eq_false_iff_not]
    omega
  · apply fixedOffset?_eq_none <;> omega

theorem isSettled_add_offset {n offset : Nat} (h : fixedOffset? n = some offset) :
    n + offset < 0x587 ∧ IsSettled (n + offset) := by
  have hlow : ∀ m : Fin 0x557, ∀ offset ∈ fixedOffset? m.val,
      m.val + offset < 0x587 ∧ IsSettled (m.val + offset) := by decide +kernel
  have hrange : n < 0x557 := by
    by_contra hhigh
    rw [fixedOffset?_eq_none (by omega) (by omega) (by omega) (by omega) (by omega)] at h
    cases h
  exact hlow ⟨n, hrange⟩ offset h

/-- The mapping leaves the text alone. -/
def IsMapped (text : List Char) : Prop :=
  ∀ c ∈ text, IsSettled c.toNat

instance : DecidablePred IsMapped :=
  fun text => List.decidableBAll (fun c : Char => IsSettled c.toNat) text

theorem IsMapped.ite {p : Prop} [Decidable p] {xs ys : List Char} (hxs : p → IsMapped xs)
    (hys : ¬ p → IsMapped ys) : IsMapped (if p then xs else ys) := by
  split
  next h => exact hxs h
  next h => exact hys h

theorem isMapped_ofNat {n : Nat} (hvalid : n < 0xd800) (h : IsSettled n) : IsMapped [Char.ofNat n] := by
  unfold IsMapped
  rw [List.forall_mem_singleton, Char.toNat_ofNat, if_pos (.inl hvalid)]
  exact h

/-- What a character is mapped to is left alone. -/
theorem isMapped_mapChar (c : Char) : IsMapped (mapChar c) := by
  have hwide : ∀ k : Fin 94, IsMapped [(Char.ofNat (k.val + 33)).toLower] := by decide +kernel
  unfold mapChar
  refine .ite (fun _ => by decide) fun hkept => .ite (fun _ => by decide) fun hdot =>
    .ite (fun hfull => ?_) fun hnarrow => ?_
  · simp only [Bool.and_eq_true, decide_eq_true_eq] at hfull
    have h := hwide ⟨c.toNat - 0xff01, by omega⟩
    rwa [show c.toNat - 0xff01 + 33 = c.toNat - 0xfee0 by omega] at h
  iterate 12 refine .ite (fun _ => by decide) fun _ => ?_
  refine .ite (fun hpair => ?_) fun hsingle => ?_
  · have := lt_of_isUpperOfPair hpair
    exact isMapped_ofNat (by omega) (isSettled_succ hpair)
  split
  next offset hoffset =>
    have := isSettled_add_offset hoffset
    exact isMapped_ofNat (by omega) this.2
  next hoffset =>
    simp only [Bool.not_eq_true] at hkept hsingle
    unfold IsMapped
    rw [List.forall_mem_singleton]
    refine ⟨hkept, ?_, ?_, hsingle, hoffset⟩
    · simp only [Bool.or_eq_true, decide_eq_true_eq] at hdot
      simp only [foldedAlone, List.mem_cons, List.not_mem_nil, or_false, not_or]
      omega
    · simp only [Bool.and_eq_true, decide_eq_true_eq] at hnarrow
      omega

theorem isMapped_flatMap_mapChar (name : List Char) : IsMapped (name.flatMap mapChar) := by
  intro d hd
  obtain ⟨c, -, hd⟩ := List.mem_flatMap.mp hd
  exact isMapped_mapChar c d hd

theorem IsMapped.flatMap_mapChar {name : List Char} (h : IsMapped name) : name.flatMap mapChar = name := by
  have hself : ∀ c ∈ name, mapChar c = [c] := fun c hc => mapChar_of_settled (h c hc)
  rw [List.flatMap_def, List.map_congr_left hself, ← List.flatMap_def, List.flatMap_singleton']

/-! ## Labels -/

theorem isPlain_of_isValid {c : Char} (hascii : c.toNat < 0x80) (h : isValid c = true) : IsPlain c := by
  unfold isValid at h
  rw [if_pos hascii] at h
  exact ⟨hascii, by simpa using h⟩

theorem isValidLabel_of_isPlain {label : List Char} (h : ∀ c ∈ label, IsPlain c) :
    isValidLabel label = true := by
  have hvalid : ∀ c ∈ label, isValid c = true := by
    intro c hc
    unfold isValid
    rw [if_pos (h c hc).1, (h c hc).2]
    rfl
  have hhead : ∀ c ∈ label.head?, (decide (0x80 ≤ c.toNat) && Text.isExtender c) = false := by
    intro c hc
    rw [decide_eq_false (Nat.not_le.mpr (h c (List.mem_of_mem_head? hc)).1), Bool.false_and]
  unfold isValidLabel
  rw [Bool.and_eq_true]
  refine ⟨List.all_eq_true.mpr hvalid, ?_⟩
  cases hfirst : label.head? with
  | none => rfl
  | some c => simp [hhead c hfirst]

theorem any_beyond_eq_false {label : List Char} (h : ∀ c ∈ label, IsPlain c) :
    (label.any fun c => 0x80 ≤ c.toNat) = false := by
  rw [List.any_eq_false]
  intro c hc
  simpa using (h c hc).1

/-- A label in ASCII that is read as itself. -/
structure IsLabel (label : List Char) : Prop where
  plain : ∀ c ∈ label, IsPlain c
  mapped : IsMapped label
  undotted : '.' ∉ label
  stays : labelToAscii? label = some label

theorem plain_of_mem_punycodeMark :
    ∀ c ∈ punycodeMark, IsPlain c ∧ IsSettled c.toNat ∧ c ≠ '.' := by
  have hall : (punycodeMark.all fun c => IsPlain c ∧ IsSettled c.toNat ∧ c ≠ '.') = true := by decide
  exact fun c hc => of_decide_eq_true (List.all_eq_true.mp hall c hc)

/-- A numeral may stand in a label, and nothing about it changes. -/
theorem plain_of_isNumeral {c : Char} (h : Punycode.IsNumeral c) :
    IsPlain c ∧ IsSettled c.toNat ∧ c ≠ '.' := by
  have hall : ∀ d : Fin 36, IsPlain (Punycode.digit d) ∧ IsSettled (Punycode.digit d).toNat ∧
      Punycode.digit d ≠ '.' := by decide +kernel
  obtain ⟨d, rfl⟩ := h
  exact hall d

/-- What a label is written with has all the properties that its characters have. -/
theorem forall_mem_encode {P : Char → Prop} {label : List Char}
    (hlabel : ∀ c ∈ label, c.toNat < 0x80 → P c) (hhyphen : P '-')
    (hnumeral : ∀ c, Punycode.IsNumeral c → P c) : ∀ c ∈ Punycode.encode label, P c := by
  intro c hc
  obtain ⟨hmem, hascii⟩ | rfl | h := Punycode.mem_encode hc
  · exact hlabel c hmem hascii
  · exact hhyphen
  · exact hnumeral c h

theorem isLabel_encode {label : List Char} (hmapped : IsMapped label) (hdot : '.' ∉ label)
    (hvalid : isValidLabel label = true) (hbeyond : (label.any fun c => 0x80 ≤ c.toNat) = true)
    (hmark : label.take 4 ≠ punycodeMark) : IsLabel (punycodeMark ++ Punycode.encode label) := by
  have hchars : ∀ c ∈ Punycode.encode label, IsPlain c ∧ IsSettled c.toNat ∧ c ≠ '.' := by
    have hall : ∀ c ∈ label, isValid c = true :=
      List.all_eq_true.mp (Bool.and_eq_true_iff.mp hvalid).1
    refine forall_mem_encode (fun c hc hascii => ?_) (by decide) fun c => plain_of_isNumeral
    exact ⟨isPlain_of_isValid hascii (hall c hc), hmapped c hc, fun h => hdot (h ▸ hc)⟩
  have hboth : ∀ c ∈ punycodeMark ++ Punycode.encode label,
      IsPlain c ∧ IsSettled c.toNat ∧ c ≠ '.' := fun c hc =>
    (List.mem_append.mp hc).elim (plain_of_mem_punycodeMark c) (hchars c)
  have hplain : ∀ c ∈ punycodeMark ++ Punycode.encode label, IsPlain c := fun c hc => (hboth c hc).1
  refine ⟨hplain, fun c hc => (hboth c hc).2.1, fun h => (hboth _ h).2.2 rfl, ?_⟩
  have htake : (punycodeMark ++ Punycode.encode label).take 4 = punycodeMark :=
    List.take_left' (by decide)
  have hdrop : (punycodeMark ++ Punycode.encode label).drop 4 = Punycode.encode label :=
    List.drop_left' (by decide)
  -- The label that the numbers denote is the one they were made from, so all its checks are passed.
  unfold labelToAscii?
  rw [isValidLabel_of_isPlain hplain, any_beyond_eq_false hplain, htake, hdrop, Punycode.decode?_encode]
  simp [hvalid, hbeyond, hmark, hmapped.flatMap_mapChar]

theorem isLabel_of_labelToAscii? {label out : List Char} (hmapped : IsMapped label) (hdot : '.' ∉ label)
    (h : labelToAscii? label = some out) : IsLabel out := by
  have hstays := h
  unfold labelToAscii? at h
  split at h
  · cases h
  next hvalid =>
  simp only [Bool.not_eq_true', Bool.not_eq_false] at hvalid
  split at h
  next hbeyond =>
    split at h
    · cases h
    next hmark =>
      cases h
      exact isLabel_encode hmapped hdot hvalid hbeyond hmark
  next hascii =>
    -- A label in ASCII is either refused or read as itself.
    have hsame : out = label := by
      split at h
      · split at h
        · split at h
          · exact (Option.some.inj h).symm
          · cases h
        · cases h
      · exact (Option.some.inj h).symm
    subst hsame
    have hall : ∀ c ∈ out, isValid c = true := List.all_eq_true.mp (Bool.and_eq_true_iff.mp hvalid).1
    refine ⟨fun c hc => isPlain_of_isValid ?_ (hall c hc), hmapped, hdot, hstays⟩
    simp only [List.any_eq_true, decide_eq_true_eq, not_exists, not_and, Nat.not_le] at hascii
    exact hascii c hc

/-- A label in ASCII without the mark of Punycode is read as itself. -/
theorem isLabel_of_isPlain {label : List Char} (hplain : ∀ c ∈ label, IsPlain c) (hmapped : IsMapped label)
    (hdot : '.' ∉ label) (hmark : label.take 4 ≠ punycodeMark) : IsLabel label := by
  refine ⟨hplain, hmapped, hdot, ?_⟩
  unfold labelToAscii?
  rw [isValidLabel_of_isPlain hplain, any_beyond_eq_false hplain]
  simp [hmark]

/-! ## Names -/

/-- The characters of a label are characters of the name, and no full stop is among them. -/
theorem of_mem_labels {name label : List Char} (h : label ∈ labels name) :
    (∀ c ∈ label, c ∈ name) ∧ '.' ∉ label := by
  have hchars : ∀ c ∈ label, c ∈ name ∧ (c == '.') = false := of_mem_splitOnP h
  exact ⟨fun c hc => (hchars c hc).1, fun hdot => by simpa using (hchars _ hdot).2⟩

theorem isName_intercalate {parts : List (List Char)} (hparts : parts ≠ [])
    (h : ∀ part ∈ parts, IsLabel part) : IsName toAscii? (List.intercalate ['.'] parts) := by
  have hmapped : IsMapped (List.intercalate ['.'] parts) := by
    intro c hc
    obtain rfl | ⟨part, hpart, hc⟩ := of_mem_intercalate hc
    · decide
    · exact (h part hpart).mapped c hc
  constructor
  · intro c hc
    obtain rfl | ⟨part, hpart, hc⟩ := of_mem_intercalate hc
    · decide
    · exact (h part hpart).plain c hc
  · have hlabels : labels (List.intercalate ['.'] parts) = parts :=
      List.splitOn_intercalate '.' (fun part hpart => (h part hpart).undotted) hparts
    have hread : parts.mapM labelToAscii? = some parts :=
      mapM_eq_some_iff.mpr (List.forall₂_same.mpr fun part hpart => (h part hpart).stays)
    unfold toAscii?
    rw [hmapped.flatMap_mapChar, hlabels, hread]
    rfl

theorem isName_of_toAscii? {text name : List Char} (h : toAscii? text = some name) :
    IsName toAscii? name := by
  unfold toAscii? at h
  obtain ⟨parts, hparts, hname⟩ := Option.bind_eq_some_iff.mp h
  obtain rfl := Option.some.inj hname
  have hread := mapM_eq_some_iff.mp hparts
  have hne : parts ≠ [] := by
    rintro rfl
    exact List.splitOn_ne_nil _ _ (List.forall₂_nil_right_iff.mp hread)
  refine isName_intercalate hne fun part hpart => ?_
  obtain ⟨label, hlabel, hout⟩ := exists_of_mapM_eq_some hparts part hpart
  obtain ⟨hchars, hdot⟩ := of_mem_labels hlabel
  exact isLabel_of_labelToAscii? (fun c hc => isMapped_flatMap_mapChar text c (hchars c hc)) hdot hout

/-! ## The rules of a conversion -/

theorem mapChar_of_isPlain {c : Char} (h : IsPlain c) : mapChar c = [c.toLower] ∧ IsPlain c.toLower := by
  have hall : ∀ c : Char, c.toNat < 0x80 → IsPlain c → mapChar c = [c.toLower] ∧ IsPlain c.toLower :=
    forall_ascii (by decide +kernel)
  exact hall c h.1 h

theorem toAscii?_of_isPlain {name : List Char} (hplain : ∀ c ∈ name, IsPlain c)
    (hmark : ∀ label ∈ labels (name.map Char.toLower), label.take 4 ≠ punycodeMark) :
    toAscii? name = some (name.map Char.toLower) := by
  have hmap : name.flatMap mapChar = name.map Char.toLower := by
    rw [List.flatMap_def, List.map_congr_left fun c hc => (mapChar_of_isPlain (hplain c hc)).1,
      ← List.flatMap_def, ← List.map_eq_flatMap]
  have hlower : ∀ c ∈ name.map Char.toLower, IsPlain c := by
    intro c hc
    obtain ⟨d, hd, rfl⟩ := List.mem_map.mp hc
    exact (mapChar_of_isPlain (hplain d hd)).2
  have hmapped : IsMapped (name.map Char.toLower) := hmap ▸ isMapped_flatMap_mapChar name
  have hlabels : ∀ label ∈ labels (name.map Char.toLower), IsLabel label := by
    intro label hlabel
    obtain ⟨hchars, hdot⟩ := of_mem_labels hlabel
    exact isLabel_of_isPlain (fun c hc => hlower c (hchars c hc)) (fun c hc => hmapped c (hchars c hc)) hdot
      (hmark label hlabel)
  have hstays := (isName_intercalate (List.splitOn_ne_nil _ _) hlabels).stays
  rw [List.intercalate_splitOn] at hstays
  have hsame : toAscii? name = toAscii? (name.map Char.toLower) := by
    unfold toAscii?
    rw [hmap, hmapped.flatMap_mapChar]
  rw [hsame]
  exact hstays

/-- The conversion keeps the rules, for all names. -/
theorem lawful_toAscii? : Lawful toAscii? where
  plain h := (isName_of_toAscii? h).plain
  stays h := (isName_of_toAscii? h).stays
  lower _ := toAscii?_of_isPlain

end Url.Domain
end Telemetry
