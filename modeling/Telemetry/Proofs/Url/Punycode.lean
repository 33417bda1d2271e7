-- SUMMARY: Punycode: a label that was written is read back, character by character.
import Mathlib
import Telemetry.Proofs.Number.Digits
import Telemetry.Url.Punycode

/-!
# Punycode read back

The writer goes through a label once for each code point beyond ASCII, in ascending order, and counts the
places it passes until one of them holds the code point. The reader puts the code points into the label in
the same order, and finds the place from the count. Both adapt the length of the numbers to the same
distances, so what the reader has put together is always the part of the label that the writer has done.
-/

namespace Telemetry.Url.Punycode

/-! ## Numbers -/

theorem digitValue?_digit {d : Nat} (h : d < 36) : digitValue? (digit d) = some d := by
  have hall : ∀ d : Fin 36, digitValue? (digit d) = some d.val := by decide
  exact hall ⟨d, h⟩

theorem decodeDistance?_cons {d : Nat} (h : d < 36) (bias value weight position : Nat)
    (rest : List Char) :
    decodeDistance? bias value weight position (digit d :: rest) =
      if d < threshold position bias then some (value + d * weight, rest)
      else decodeDistance? bias (value + d * weight) (weight * (36 - threshold position bias))
        (position + 36) rest := by
  simp [decodeDistance?, digitValue?_digit h]

/-- A number is read back, whatever follows it. -/
theorem decodeDistance?_encodeDistance (bias q position value weight : Nat) (rest : List Char) :
    decodeDistance? bias value weight position (encodeDistance bias q position ++ rest) =
      some (value + q * weight, rest) := by
  fun_induction encodeDistance bias q position generalizing value weight with
  | case1 q position t hlt =>
    have hle : t ≤ 26 := threshold_le position bias
    rw [List.singleton_append, decodeDistance?_cons (by omega), if_pos hlt]
  | case2 q position t hlt ih =>
    have hpos : 1 ≤ t := threshold_pos position bias
    have hle : t ≤ 26 := threshold_le position bias
    have hmod : (q - t) % (36 - t) < 36 - t := Nat.mod_lt _ (by omega)
    have hdivmod := Nat.mod_add_div (q - t) (36 - t)
    rw [List.cons_append, decodeDistance?_cons (by omega), if_neg (by omega), ih]
    have hq : t + (q - t) % (36 - t) + (36 - t) * ((q - t) / (36 - t)) = q := by omega
    congr 2
    calc value + (t + (q - t) % (36 - t)) * weight
          + (q - t) / (36 - t) * (weight * (36 - t))
        = value + (t + (q - t) % (36 - t) + (36 - t) * ((q - t) / (36 - t))) * weight := by ring
      _ = value + q * weight := by rw [hq]

theorem encodeDistance_ne_nil (bias q position : Nat) : encodeDistance bias q position ≠ [] := by
  rw [encodeDistance]
  split <;> simp

/-! ## One character -/

/-- Where the reader stands: the last code point, the place in the label after it, the bias, and the label
    as far as it has been put together. -/
structure Reader where
  point : Nat
  index : Nat
  bias : Nat
  label : List Char

namespace Reader

/-- What comes of reading on. -/
def finish? (s : Reader) (fuel : Nat) (digits : List Char) : Option (List Char) :=
  decodePoints? fuel s.point s.index s.bias s.label digits

/-- The reader stands where the writer stood when it last wrote something: from there the distance that the
    writer has gathered leads to its code point, and to the place of the label at its head. -/
structure Follows (s : Reader) (p : Progress) (basic place : Nat) : Prop where
  ahead : s.point ≤ p.point
  gathered : s.index + p.delta = (p.point - s.point) * (p.written + 1) + place
  bias : s.bias = p.bias
  written : s.label.length = p.written
  first : (s.index == 0) = (p.written == basic)
  basic : basic ≤ p.written

/-- The reader when it has put a character into the label. -/
def put (s : Reader) (p : Progress) (basic place : Nat) (c : Char) : Reader :=
  ⟨p.point, place + 1, adapt p.delta (p.written + 1) (p.written == basic),
    s.label.take place ++ c :: s.label.drop place⟩

variable {s : Reader} {p : Progress} {basic place : Nat}

/-- A character that is written is put into its place. -/
theorem Follows.finish? (h : s.Follows p basic place) (hplace : place ≤ s.label.length) {c : Char}
    (hc : c.toNat = p.point) (fuel : Nat) (rest : List Char) :
    s.finish? (fuel + 1) (encodeDistance p.bias p.delta 36 ++ rest) =
      (s.put p basic place c).finish? fuel rest := by
  have hlt : place < p.written + 1 := by
    have := h.written
    omega
  have hread : decodeDistance? s.bias s.index 1 36 (encodeDistance p.bias p.delta 36 ++ rest) =
      some (s.index + p.delta, rest) := by
    rw [h.bias, decodeDistance?_encodeDistance, Nat.mul_one]
  have hpoint : s.point + (s.index + p.delta) / (p.written + 1) = p.point := by
    rw [h.gathered, Nat.mul_comm, Nat.mul_add_div (Nat.succ_pos _), Nat.div_eq_of_lt hlt, Nat.add_zero]
    exact Nat.add_sub_cancel' h.ahead
  have hplace : (s.index + p.delta) % (p.written + 1) = place := by
    rw [h.gathered, Nat.mul_add_mod', Nat.mod_eq_of_lt hlt]
  have hvalid : ¬ (0x10ffff < p.point ∨ 0xd800 ≤ p.point ∧ p.point ≤ 0xdfff) := by
    have hchar : c.val.toNat < 0xd800 ∨ 0xdfff < c.val.toNat ∧ c.val.toNat < 0x110000 := c.valid
    have : c.toNat = c.val.toNat := rfl
    omega
  have hchar : Char.ofNat p.point = c := hc ▸ Char.ofNat_toNat c
  obtain ⟨d, digits, hdigits⟩ :=
    List.exists_cons_of_ne_nil (List.append_ne_nil_of_left_ne_nil
      (encodeDistance_ne_nil p.bias p.delta 36) rest)
  rw [hdigits] at hread ⊢
  unfold Reader.finish? Reader.put
  simp [decodePoints?, hread, h.written, hpoint, hplace, h.first, hvalid, hchar]

/-- The reader has put a character into the label, and so has the writer. -/
theorem Follows.put (h : s.Follows p basic place) (hplace : place ≤ s.label.length) (c : Char) :
    (s.put p basic place c).Follows
      ⟨p.point, 0, adapt p.delta (p.written + 1) (p.written == basic), p.written + 1⟩ basic
      (place + 1) where
  ahead := Nat.le_refl _
  gathered := by simp [Reader.put]
  bias := rfl
  written := by
    have := h.written
    simp [Reader.put]
    omega
  first := by
    have := h.basic
    have hne : p.written + 1 ≠ basic := by omega
    simp [Reader.put, hne]
  basic := Nat.le_succ_of_le h.basic

/-! ## One code point -/

/-- The characters of a label up to a code point. -/
def upTo (point : Nat) (label : List Char) : List Char :=
  label.filter fun c => c.toNat ≤ point

/-- The characters of a label below a code point. -/
def below (point : Nat) (label : List Char) : List Char :=
  label.filter fun c => c.toNat < point

theorem upTo_append (point : Nat) (xs ys : List Char) :
    upTo point (xs ++ ys) = upTo point xs ++ upTo point ys :=
  List.filter_append ..

theorem upTo_singleton_of_le {point : Nat} {c : Char} (h : c.toNat ≤ point) : upTo point [c] = [c] := by
  simp [upTo, h]

theorem upTo_singleton_of_lt {point : Nat} {c : Char} (h : point < c.toNat) : upTo point [c] = [] := by
  simp [upTo, h]

theorem below_cons_of_lt {point : Nat} {c : Char} (h : c.toNat < point) (label : List Char) :
    below point (c :: label) = c :: below point label := by
  simp [below, h]

theorem below_cons_of_le {point : Nat} {c : Char} (h : point ≤ c.toNat) (label : List Char) :
    below point (c :: label) = below point label := by
  simp [below, Nat.not_lt.mpr h]

/-- One more place is passed. -/
theorem Follows.pass (h : s.Follows p basic place) :
    s.Follows { p with delta := p.delta + 1 } basic (place + 1) :=
  ⟨h.ahead, by have := h.gathered; dsimp only; omega, h.bias, h.written, h.first, h.basic⟩

/-- The writer goes through the rest of a label for a code point. The reader then has all characters up to
    it, and what it makes of the digits is what it makes of those that come after. -/
theorem Follows.encodePoint (after : List Char) :
    ∀ (before : List Char) (s : Reader) (p : Progress), s.Follows p basic (upTo p.point before).length →
      s.label = upTo p.point before ++ below p.point after →
      ∀ (rest : List Char) (fuel : Nat),
        ((encodePoint basic p.point after p).1 ++ rest).length ≤ fuel →
        ∃ (fuel' : Nat) (s' : Reader), rest.length ≤ fuel' ∧
          s.finish? fuel ((encodePoint basic p.point after p).1 ++ rest) = s'.finish? fuel' rest ∧
          s'.label = upTo p.point (before ++ after) ∧
          s'.Follows (encodePoint basic p.point after p).2 basic s'.label.length ∧
          (encodePoint basic p.point after p).2.point = p.point := by
  induction after with
  | nil =>
    intro before s p h hlabel rest fuel hfuel
    have hlabel' : s.label = upTo p.point before := by simpa [below] using hlabel
    refine ⟨fuel, s, by simpa [Punycode.encodePoint] using hfuel, rfl, by simpa using hlabel', ?_, rfl⟩
    exact hlabel' ▸ h
  | cons c after ih =>
    intro before s p h hlabel rest fuel hfuel
    have hsplit : before ++ c :: after = (before ++ [c]) ++ after := by simp
    rw [hsplit]
    unfold Punycode.encodePoint at hfuel ⊢
    obtain hlt | heq | hgt := Nat.lt_trichotomy c.toNat p.point
    · -- The reader has the character already, so that the writer passes one more place.
      have hbefore : upTo p.point (before ++ [c]) = upTo p.point before ++ [c] := by
        rw [upTo_append, upTo_singleton_of_le (Nat.le_of_lt hlt)]
      rw [if_pos hlt] at hfuel ⊢
      refine ih (before ++ [c]) s { p with delta := p.delta + 1 } ?_ ?_ rest fuel hfuel
      · rw [hbefore, List.length_append]
        exact h.pass
      · rw [hbefore, hlabel, below_cons_of_lt hlt, List.append_assoc]
        rfl
    · have hbefore : upTo p.point (before ++ [c]) = upTo p.point before ++ [c] := by
        rw [upTo_append, upTo_singleton_of_le (Nat.le_of_eq heq)]
      rw [below_cons_of_le (Nat.le_of_eq heq.symm)] at hlabel
      have hplace : (upTo p.point before).length ≤ s.label.length := by simp [hlabel]
      have hput : (s.put p basic (upTo p.point before).length c).label =
          upTo p.point (before ++ [c]) ++ below p.point after := by
        unfold Reader.put
        rw [hlabel, List.take_left, List.drop_left, hbefore, List.append_assoc]
        rfl
      rw [if_neg (Nat.not_lt.mpr (Nat.le_of_eq heq.symm)), if_pos heq] at hfuel ⊢
      dsimp only at hfuel ⊢
      rw [List.append_assoc] at hfuel ⊢
      have hdigits := List.length_pos_iff.mpr (encodeDistance_ne_nil p.bias p.delta 36)
      rw [List.length_append] at hfuel
      obtain ⟨fuel, rfl⟩ : ∃ less, fuel = less + 1 := ⟨fuel - 1, by omega⟩
      rw [h.finish? hplace heq]
      refine ih (before ++ [c]) _
        ⟨p.point, 0, adapt p.delta (p.written + 1) (p.written == basic), p.written + 1⟩ ?_ hput rest fuel
        (by dsimp only; omega)
      rw [hbefore, List.length_append]
      exact h.put hplace c
    · have hbefore : upTo p.point (before ++ [c]) = upTo p.point before := by
        rw [upTo_append, upTo_singleton_of_lt hgt, List.append_nil]
      rw [if_neg (Nat.lt_asymm hgt), if_neg (Nat.ne_of_gt hgt)] at hfuel ⊢
      rw [below_cons_of_le (Nat.le_of_lt hgt)] at hlabel
      exact ih (before ++ [c]) s p (hbefore.symm ▸ h) (hbefore.symm ▸ hlabel) rest fuel hfuel

/-! ## All code points -/

/-- Code points in ascending order, among them all that a label holds from one on. -/
structure Covers (points : List Nat) (low : Nat) (label : List Char) : Prop where
  ascending : points.Pairwise (· < ·)
  low_le : ∀ point ∈ points, low ≤ point
  mem : ∀ c ∈ label, low ≤ c.toNat → c.toNat ∈ points

variable {label : List Char}

theorem Covers.tail {point low : Nat} {points : List Nat} (h : Covers (point :: points) low label) :
    Covers points (point + 1) label where
  ascending := h.ascending.of_cons
  low_le := fun _ hmem => List.rel_of_pairwise_cons h.ascending hmem
  mem := by
    intro c hc hlow
    have hle := h.low_le point List.mem_cons_self
    have hmem := h.mem c hc (by omega)
    rw [List.mem_cons] at hmem
    exact hmem.resolve_left (by omega)

/-- No character lies between the last code point and the next. -/
theorem Covers.below_eq {point low : Nat} {points : List Nat} (h : Covers (point :: points) low label) :
    below low label = below point label := by
  refine List.filter_congr fun c hc => ?_
  have hle := h.low_le point List.mem_cons_self
  have hnext := h.tail.low_le
  rw [decide_eq_decide]
  refine ⟨fun hlt => by omega, fun hlt => Nat.lt_of_not_le fun hlow => ?_⟩
  have hmem := h.mem c hc hlow
  rw [List.mem_cons] at hmem
  obtain heq | hmem := hmem
  · omega
  · have := hnext _ hmem
    omega

theorem Covers.below_eq_self {low : Nat} (h : Covers [] low label) : below low label = label := by
  refine List.filter_eq_self.mpr fun c hc => decide_eq_true (Nat.lt_of_not_le fun hlow => ?_)
  exact List.not_mem_nil (h.mem c hc hlow)

theorem upTo_eq_below_succ (point : Nat) (label : List Char) :
    upTo point label = below (point + 1) label :=
  List.filter_congr fun _ _ => decide_eq_decide.mpr Nat.lt_succ_iff.symm

/-- The places up to the next code point are passed. -/
theorem Follows.skip (h : s.Follows p basic 0) {point : Nat} (hpoint : p.point ≤ point) :
    s.Follows { p with delta := p.delta + (point - p.point) * (p.written + 1), point := point } basic 0 := by
  have hahead := h.ahead
  refine ⟨Nat.le_trans hahead hpoint, ?_, h.bias, h.written, h.first, h.basic⟩
  have hsplit : point - s.point = (p.point - s.point) + (point - p.point) := by omega
  have hgathered := h.gathered
  dsimp only
  rw [hsplit, Nat.add_mul]
  omega

/-- The whole label is behind the writer, and it turns to the next code point. -/
theorem Follows.turn (h : s.Follows p basic s.label.length) :
    s.Follows { p with delta := p.delta + 1, point := p.point + 1 } basic 0 := by
  have hahead := h.ahead
  refine ⟨Nat.le_succ_of_le hahead, ?_, h.bias, h.written, h.first, h.basic⟩
  have hgathered := h.gathered
  have hwritten := h.written
  dsimp only
  rw [Nat.succ_sub hahead, Nat.succ_mul]
  omega

/-- All code points that the writer has left are put into their places. -/
theorem Follows.encodePoints (points : List Nat) :
    ∀ (s : Reader) (p : Progress), Covers points p.point label → s.label = below p.point label →
      s.Follows p basic 0 → ∀ fuel, (encodePoints label basic points p).length ≤ fuel →
        s.finish? fuel (encodePoints label basic points p) = some label := by
  induction points with
  | nil =>
    intro s p hcovers hlabel h fuel hfuel
    rw [hcovers.below_eq_self] at hlabel
    cases fuel <;> simp [Punycode.encodePoints, Reader.finish?, decodePoints?, hlabel]
  | cons point points ih =>
    intro s p hcovers hlabel h fuel hfuel
    have hskip := h.skip (hcovers.low_le point List.mem_cons_self)
    rw [hcovers.below_eq] at hlabel
    unfold Punycode.encodePoints at hfuel ⊢
    dsimp only at hfuel ⊢
    obtain ⟨fuel', s', hfuel', hfinish, hlabel', hfollows, hpoint⟩ :=
      Follows.encodePoint label [] s _ hskip hlabel _ fuel hfuel
    dsimp only at hfinish hlabel' hpoint
    rw [hfinish]
    have hturn := hfollows.turn
    rw [hpoint] at hturn
    refine ih s' _ hcovers.tail ?_ hturn fuel' hfuel'
    rw [hlabel', List.nil_append, upTo_eq_below_succ]

end Reader

/-! ## Labels -/

/-- The character is one that numbers are written with. -/
def IsNumeral (c : Char) : Prop :=
  ∃ d : Fin 36, c = digit d

theorem isNumeral_digit {d : Nat} (h : d < 36) : IsNumeral (digit d) :=
  ⟨⟨d, h⟩, rfl⟩

theorem isNumeral_of_mem_encodeDistance (bias q position : Nat) :
    ∀ c ∈ encodeDistance bias q position, IsNumeral c := by
  fun_induction encodeDistance bias q position with
  | case1 q position t hlt =>
    have hle : t ≤ 26 := threshold_le position bias
    simpa using isNumeral_digit (by omega)
  | case2 q position t hlt ih =>
    have hpos : 1 ≤ t := threshold_pos position bias
    have hle : t ≤ 26 := threshold_le position bias
    have hmod : (q - t) % (36 - t) < 36 - t := Nat.mod_lt _ (by omega)
    exact List.forall_mem_cons.mpr ⟨isNumeral_digit (by omega), ih⟩

theorem isNumeral_of_mem_encodePoint (basic point : Nat) (label : List Char) (p : Progress) :
    ∀ c ∈ (encodePoint basic point label p).1, IsNumeral c := by
  fun_induction encodePoint basic point label p with
  | case1 => simp
  | case2 _ _ _ _ ih => exact ih
  | case3 c rest p hlt heq digits next others p' hrest ih =>
    rw [hrest] at ih
    intro d hd
    obtain hd | hd := List.mem_append.mp hd
    · exact isNumeral_of_mem_encodeDistance _ _ _ d hd
    · exact ih d hd
  | case4 _ _ _ _ _ ih => exact ih

theorem isNumeral_of_mem_encodePoints (label : List Char) (basic : Nat) (points : List Nat) (p : Progress) :
    ∀ c ∈ encodePoints label basic points p, IsNumeral c := by
  induction points generalizing p with
  | nil => simp [encodePoints]
  | cons point points ih =>
    intro c hc
    unfold encodePoints at hc
    obtain hc | hc := List.mem_append.mp hc
    · exact isNumeral_of_mem_encodePoint _ _ _ _ c hc
    · exact ih _ c hc

theorem IsNumeral.ne_hyphen {c : Char} (h : IsNumeral c) : c ≠ '-' := by
  have hall : ∀ d : Fin 36, digit d ≠ '-' := by decide
  obtain ⟨d, rfl⟩ := h
  exact hall d

theorem nodup_eraseDups (points : List Nat) : points.eraseDups.Nodup := by
  induction hlength : points.length using Nat.strongRecOn generalizing points with
  | ind length ih =>
    cases points with
    | nil => simp
    | cons point points =>
      rw [List.eraseDups_cons, List.nodup_cons, List.mem_eraseDups]
      refine ⟨by simp, ih _ ?_ _ rfl⟩
      have := List.length_filter_le (fun other => !other == point) points
      rw [List.length_cons] at hlength
      omega

/-- The code points of a label beyond ASCII. -/
def pointsOf (label : List Char) : List Nat :=
  ((label.map Char.toNat).filter (128 ≤ ·)).eraseDups.mergeSort

theorem covers_pointsOf (label : List Char) : Reader.Covers (pointsOf label) 128 label := by
  have hmem : ∀ point, point ∈ pointsOf label ↔ (∃ c ∈ label, c.toNat = point) ∧ 128 ≤ point := by
    intro point
    unfold pointsOf
    rw [List.mem_mergeSort, List.mem_eraseDups, List.mem_filter, List.mem_map, decide_eq_true_iff]
  have hnodup : (pointsOf label).Nodup :=
    (List.mergeSort_perm _ _).nodup_iff.mpr (nodup_eraseDups _)
  have hsorted : (pointsOf label).Pairwise (· ≤ ·) := by
    have htrans : ∀ a b c : Nat, decide (a ≤ b) = true → decide (b ≤ c) = true →
        decide (a ≤ c) = true := by
      simpa using fun a b c => Nat.le_trans
    have htotal : ∀ a b : Nat, (decide (a ≤ b) || decide (b ≤ a)) = true := by
      simpa using Nat.le_total
    exact (List.pairwise_mergeSort htrans htotal _).imp of_decide_eq_true
  refine ⟨?_, fun point h => ((hmem point).mp h).2, fun c hc hlow => (hmem _).mpr ⟨⟨c, hc, rfl⟩, hlow⟩⟩
  exact hsorted.imp₂ (fun _ _ => Nat.lt_of_le_of_ne) hnodup

/-- The characters of a label that are written as they are. -/
def asciiPart (label : List Char) : List Char :=
  Reader.below 128 label

/-- The numbers that a label is written with. -/
def numbers (label : List Char) : List Char :=
  encodePoints label (asciiPart label).length (pointsOf label) ⟨128, 0, 72, (asciiPart label).length⟩

theorem encode_eq (label : List Char) :
    encode label = (if (asciiPart label).isEmpty then [] else asciiPart label ++ ['-']) ++ numbers label :=
  rfl

theorem isNumeral_of_mem_numbers {label : List Char} {c : Char} (h : c ∈ numbers label) : IsNumeral c :=
  isNumeral_of_mem_encodePoints _ _ _ _ c h

/-- Every character of a written label is one of the label, a hyphen or a numeral. -/
theorem mem_encode {label : List Char} {c : Char} (h : c ∈ encode label) :
    c ∈ label ∧ c.toNat < 128 ∨ c = '-' ∨ IsNumeral c := by
  rw [encode_eq] at h
  obtain h | h := List.mem_append.mp h
  · split at h
    · cases h
    · obtain h | h := List.mem_append.mp h
      · exact .inl (by simpa [asciiPart, Reader.below] using h)
      · exact .inr (.inl (List.mem_singleton.mp h))
  · exact .inr (.inr (isNumeral_of_mem_numbers h))

theorem decodePoints?_numbers (label : List Char) :
    decodePoints? (numbers label).length 128 0 72 (asciiPart label) (numbers label) = some label := by
  have hstart : Reader.Follows ⟨128, 0, 72, asciiPart label⟩ ⟨128, 0, 72, (asciiPart label).length⟩
      (asciiPart label).length 0 :=
    ⟨Nat.le_refl _, by simp, rfl, rfl, by simp, Nat.le_refl _⟩
  exact hstart.encodePoints (pointsOf label) _ _ (covers_pointsOf label) rfl _ (Nat.le_refl _)

/-- A label that was written is read back. -/
theorem decode?_encode (label : List Char) : decode? (encode label) = some label := by
  have hnumeral : ∀ c ∈ (numbers label).reverse, decide (c ≠ '-') = true := fun c hc =>
    decide_eq_true (isNumeral_of_mem_numbers (List.mem_reverse.mp hc)).ne_hyphen
  have hascii : (asciiPart label).any (fun c => 128 ≤ c.toNat) = false := by
    simp [asciiPart, Reader.below]
  unfold decode?
  rw [encode_eq]
  cases hempty : (asciiPart label).isEmpty with
  | true =>
    -- Without a hyphen all the text is numbers.
    have hspan : (numbers label).reverse.span (· ≠ '-') = ((numbers label).reverse, []) :=
      span_of_forall hnumeral
    have hread := decodePoints?_numbers label
    rw [List.isEmpty_iff.mp hempty] at hread
    rw [if_pos rfl, List.nil_append]
    simp only [hspan, List.reverse_reverse, List.any_nil, Bool.false_eq_true, if_false]
    exact hread
  | false =>
    have hspan : ((asciiPart label ++ ['-']) ++ numbers label).reverse.span (· ≠ '-') =
        ((numbers label).reverse, '-' :: (asciiPart label).reverse) := by
      rw [List.reverse_append, List.reverse_append]
      exact span_append hnumeral (by simp)
    rw [if_neg (by simp)]
    simp only [hspan, List.reverse_reverse, hascii, Bool.false_eq_true, if_false]
    exact decodePoints?_numbers label

end Telemetry.Url.Punycode
