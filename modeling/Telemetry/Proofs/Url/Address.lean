-- SUMMARY: Addresses of both versions: what is written of an address is read as that address.
import Mathlib
import Telemetry.Proofs.Number.Digits
import Telemetry.Proofs.Url.Name
import Telemetry.Url.Host

/-!
# Addresses

The canonical texts of addresses are read back. Version 4 is written in four decimal parts, whatever the
number of parts and their bases were when it was read. Version 6 is written in eight hexadecimal groups or,
where several zeros follow each other, in two runs of groups with a gap between them. The gap is found again
because a group is never empty, and it is filled with as many zeros as were left out.
-/

namespace Telemetry.Url.Host

/-! ## Numbers -/

/-- The value of a digit of any base up to sixteen. -/
def digitOf? (base : Nat) (c : Char) : Option Nat :=
  (Hex.digitValue? (UInt8.ofNat (min c.toNat 255))).filter (· < base)

theorem digitsOfBase?_concat (base : Nat) (digits : List Char) (c : Char) :
    digitsOfBase? base (digits ++ [c]) =
      (digitsOfBase? base digits).bind fun n => (digitOf? base c).map (n * base + ·) := by
  unfold digitsOfBase? digitOf?
  rw [List.foldlM_append]
  congr 1
  funext n
  rw [List.foldlM_cons]
  cases Hex.digitValue? (UInt8.ofNat (min c.toNat 255)) with
  | none => rfl
  | some d =>
    by_cases hd : d < base
    · simp [hd]
    · simp [hd, Nat.not_lt.mp hd]

theorem digitOf?_digitChar {base d : Nat} (hbase : base ≤ 16) (hd : d < base) :
    digitOf? base d.digitChar = some d := by
  have hvalue : ∀ d : Fin 16,
      Hex.digitValue? (UInt8.ofNat (min d.val.digitChar.toNat 255)) = some d.val := by decide
  unfold digitOf?
  rw [hvalue ⟨d, by omega⟩]
  simpa using hd

theorem digitsOfBase?_toDigits {base : Nat} (hlow : 1 < base) (hhigh : base ≤ 16) (n : Nat) :
    digitsOfBase? base (Nat.toDigits base n) = some n := by
  induction n using Nat.strongRecOn with
  | ind n ih =>
    by_cases hn : n < base
    · rw [Nat.toDigits_of_lt_base hn, ← List.nil_append [n.digitChar], digitsOfBase?_concat,
        digitOf?_digitChar hhigh hn]
      simp [digitsOfBase?]
    · have hmod : n % base < base := Nat.mod_lt _ (by omega)
      rw [Nat.toDigits_of_base_le hlow (Nat.not_lt.mp hn), digitsOfBase?_concat,
        ih _ (Nat.div_lt_self (by omega) hlow), digitOf?_digitChar hhigh hmod]
      simp [Nat.div_add_mod']

theorem lt_of_digitsOfBase? {base n : Nat} {digits : List Char} (h : digitsOfBase? base digits = some n) :
    n < base ^ digits.length := by
  induction digits using List.reverseRecOn generalizing n with
  | nil =>
    obtain rfl : 0 = n := Option.some.inj h
    simp
  | append_singleton digits c ih =>
    rw [digitsOfBase?_concat] at h
    obtain ⟨m, hm, hn⟩ := Option.bind_eq_some_iff.mp h
    obtain ⟨d, hd, rfl⟩ := Option.map_eq_some_iff.mp hn
    have hdigit : d < base := by simpa using (Option.filter_eq_some_iff.mp hd).2
    have hbound : (m + 1) * base ≤ base ^ digits.length * base := Nat.mul_le_mul_right _ (ih hm)
    rw [List.length_append, List.length_singleton, Nat.pow_succ]
    rw [Nat.add_mul] at hbound
    omega

theorem exists_of_mem_toDigits {base n : Nat} (hbase : 1 < base) {c : Char} (h : c ∈ Nat.toDigits base n) :
    ∃ d < base, c = d.digitChar := by
  induction n using Nat.strongRecOn with
  | ind n ih =>
    by_cases hn : n < base
    · rw [Nat.toDigits_of_lt_base hn, List.mem_singleton] at h
      exact ⟨n, hn, h⟩
    · rw [Nat.toDigits_of_base_le hbase (Nat.not_lt.mp hn)] at h
      obtain h | h := List.mem_append.mp h
      · exact ih _ (Nat.div_lt_self (by omega) hbase) h
      · exact ⟨n % base, Nat.mod_lt _ (by omega), List.mem_singleton.mp h⟩

/-! ## Version 4 -/

theorem numberPart?_toDigits (n : Nat) : numberPart? (Nat.toDigits 10 n) = some n := by
  have hread : digitsOfBase? 10 (Nat.toDigits 10 n) = some n :=
    digitsOfBase?_toDigits (by decide) (by decide) n
  rcases Nat.eq_zero_or_pos n with rfl | hpos
  · rfl
  · have hhead := head?_toDigits_ne_zero (Nat.ne_of_gt hpos)
    cases hdigits : Nat.toDigits 10 n with
    | nil => exact absurd hdigits Nat.toDigits_ne_nil
    | cons first rest =>
      rw [hdigits] at hhead hread
      have hfirst : first ≠ '0' := fun h => hhead (by rw [h]; rfl)
      unfold numberPart?
      split
      all_goals simp_all

/-- The four bytes of an address. -/
def octets (address : Nat) : List Nat :=
  [address / 16777216 % 256, address / 65536 % 256, address / 256 % 256, address % 256]

/-- The parts of the text of an address. -/
def parts4 (address : Nat) : List (List Char) :=
  (octets address).map (Nat.toDigits 10)

theorem toList_writeAddress4 (address : Nat) :
    (writeAddress4 address).toList = List.intercalate ['.'] (parts4 address) := by
  unfold writeAddress4 parts4
  rw [String.toList_intercalate]
  simp [octets]

theorem of_mem_parts4 {address : Nat} {part : List Char} (h : part ∈ parts4 address) :
    part ≠ [] ∧ ∀ c ∈ part, c.isDigit = true := by
  obtain ⟨n, -, rfl⟩ := List.mem_map.mp h
  exact ⟨Nat.toDigits_ne_nil, fun c => isDigit_of_mem_toDigits⟩

theorem parts4_ne_nil (address : Nat) : parts4 address ≠ [] := by
  simp [parts4, octets]

theorem addressParts_writeAddress4 (address : Nat) :
    addressParts (writeAddress4 address).toList = parts4 address := by
  have hsplit : (writeAddress4 address).toList.splitOn '.' = parts4 address := by
    rw [toList_writeAddress4]
    exact List.splitOn_intercalate '.'
      (fun part hpart hdot => by cases (of_mem_parts4 hpart).2 '.' hdot) (parts4_ne_nil address)
  unfold addressParts
  simp only [hsplit]
  split
  next before hbefore hreverse =>
    have hempty : [] ∈ parts4 address := by
      rw [← List.mem_reverse, hreverse]
      exact List.mem_cons_self
    exact absurd rfl (of_mem_parts4 hempty).1
  next => rfl

theorem endsInNumber_writeAddress4 (address : Nat) : endsInNumber (writeAddress4 address).toList = true := by
  have hlast : ∀ part ∈ (parts4 address).getLast?, part ≠ [] ∧ part.all Char.isDigit = true := by
    intro part hpart
    have := of_mem_parts4 (List.mem_of_getLast? hpart)
    exact ⟨this.1, List.all_eq_true.mpr this.2⟩
  unfold endsInNumber
  rw [addressParts_writeAddress4]
  cases h : (parts4 address).getLast? with
  | none => exact absurd (List.getLast?_eq_none_iff.mp h) (parts4_ne_nil address)
  | some part =>
    obtain ⟨hne, hdigits⟩ := hlast part h
    simp [hne, hdigits]

/-- The text of an address is read as a number with the same four bytes. -/
theorem address4?_writeAddress4 (address : Nat) :
    ∃ number, address4? (writeAddress4 address).toList = some number ∧
      writeAddress4 number = writeAddress4 address := by
  have hnumbers : (parts4 address).mapM numberPart? = some (octets address) := by
    rw [mapM_eq_some_iff, parts4, List.forall₂_map_left_iff, List.forall₂_same]
    exact fun n _ => numberPart?_toDigits n
  refine ⟨address % 4294967296, ?_, ?_⟩
  · unfold address4?
    have hbyte : ∀ n, n % 256 < 256 := fun n => Nat.mod_lt _ (by decide)
    simp only [addressParts_writeAddress4, hnumbers]
    simp [parts4, octets, hbyte]
    omega
  · rw [← String.toList_inj, toList_writeAddress4, toList_writeAddress4]
    have hoctets : octets (address % 4294967296) = octets address := by
      unfold octets
      simp only [List.cons.injEq, and_true]
      omega
    unfold parts4
    rw [hoctets]

/-! ## Version 6 -/

/-- The groups are numbers of sixteen bits. -/
def Fit (groups : List Nat) : Prop :=
  ∀ g ∈ groups, g < 65536

theorem Fit.append {front back : List Nat} (hfront : Fit front) (hback : Fit back) : Fit (front ++ back) :=
  fun g hg => (List.mem_append.mp hg).elim (hfront g) (hback g)

theorem lt_of_group? {digits : List Char} {g : Nat} (h : group? digits = some g) : g < 65536 := by
  unfold group? at h
  split at h
  · cases h
  next hlength =>
    simp only [Bool.or_eq_true, decide_eq_true_eq, not_or, Nat.not_lt] at hlength
    have hpow : 16 ^ digits.length ≤ 16 ^ 4 := Nat.pow_le_pow_right (by decide) hlength.2
    exact Nat.lt_of_lt_of_le (lt_of_digitsOfBase? h) hpow

theorem lt_of_byte? {digits : List Char} {b : Nat} (h : byte? digits = some b) : b < 256 := by
  unfold byte? at h
  split at h
  · cases h
  · cases h
  · split at h
    · simpa using (Option.filter_eq_some_iff.mp h).2
    · cases h

theorem fit_of_embedded? {text : List Char} {groups : List Nat} (h : embedded? text = some groups) :
    Fit groups := by
  unfold embedded? at h
  obtain ⟨bytes, hbytes, hgroups⟩ := Option.bind_eq_some_iff.mp h
  have hlow : ∀ b ∈ bytes, b < 256 := by
    intro b hb
    obtain ⟨digits, -, hread⟩ := exists_of_mapM_eq_some hbytes b hb
    exact lt_of_byte? hread
  split at hgroups
  next a b c d =>
    obtain rfl := Option.some.inj hgroups
    simp only [List.forall_mem_cons] at hlow
    intro g hg
    simp only [List.mem_cons, List.not_mem_nil, or_false] at hg
    omega
  · cases hgroups

theorem fit_of_groups? {mayEmbed : Bool} {parts : List (List Char)} {groups : List Nat}
    (h : groups? mayEmbed parts = some groups) : Fit groups := by
  induction parts using groups?.induct mayEmbed generalizing groups with
  | case1 =>
    obtain rfl := Option.some.inj h
    simp [Fit]
  | case2 last hembed =>
    rw [groups?, if_pos hembed] at h
    exact fit_of_embedded? h
  | case3 last hembed =>
    rw [groups?, if_neg hembed] at h
    obtain ⟨g, hg, rfl⟩ := Option.map_eq_some_iff.mp h
    simpa [Fit] using lt_of_group? hg
  | case4 part rest hrest ih =>
    rw [groups?] at h
    · obtain ⟨g, hg, h⟩ := Option.bind_eq_some_iff.mp h
      obtain ⟨others, hothers, h⟩ := Option.bind_eq_some_iff.mp h
      obtain rfl := Option.some.inj h
      exact List.forall_mem_cons.mpr ⟨lt_of_group? hg, ih hothers⟩
    · exact hrest

theorem fit_of_side? {mayEmbed : Bool} {text : List Char} {groups : List Nat}
    (h : side? mayEmbed text = some groups) : Fit groups := by
  unfold side? at h
  split at h
  · obtain rfl := Option.some.inj h
    simp [Fit]
  · exact fit_of_groups? h

/-- Only eight groups of sixteen bits are read as an address. -/
theorem fit_of_address6? {text : List Char} {groups : List Nat} (h : address6? text = some groups) :
    groups.length = 8 ∧ Fit groups := by
  unfold address6? at h
  split at h
  · obtain ⟨hside, hlength⟩ := Option.filter_eq_some_iff.mp h
    exact ⟨of_decide_eq_true hlength, fit_of_side? hside⟩
  next before after hsplit =>
    obtain ⟨front, hfront, h⟩ := Option.bind_eq_some_iff.mp h
    obtain ⟨back, hback, h⟩ := Option.bind_eq_some_iff.mp h
    obtain ⟨_, hguard, h⟩ := Option.bind_eq_some_iff.mp h
    obtain rfl := Option.some.inj h
    have hle : front.length + back.length ≤ 7 := by simpa [guard] using hguard
    refine ⟨by simp; omega, ?_⟩
    have hzeros : Fit (List.replicate (8 - front.length - back.length) 0) := by
      intro g hg
      rw [List.eq_of_mem_replicate hg]
      decide
    exact ((fit_of_side? hfront).append hzeros).append (fit_of_side? hback)

/-- The text of a run of groups. -/
def groupsText (groups : List Nat) : List Char :=
  List.intercalate [':'] (groups.map (Nat.toDigits 16))

theorem toList_writeGroups (groups : List Nat) : (writeGroups groups).toList = groupsText groups := by
  unfold writeGroups groupsText
  rw [String.toList_intercalate]
  simp [Function.comp_def]

/-- No hexadecimal digit separates anything. -/
theorem not_mem_toDigits {c : Char} (hc : c ∈ [':', '.', '[', ']']) (g : Nat) : c ∉ Nat.toDigits 16 g := by
  have hdigit : ∀ d : Fin 16, d.val.digitChar ∉ [':', '.', '[', ']'] := by decide
  intro h
  obtain ⟨d, hd, rfl⟩ := exists_of_mem_toDigits (by decide) h
  exact hdigit ⟨d, hd⟩ hc

theorem group?_toDigits {g : Nat} (h : g < 65536) : group? (Nat.toDigits 16 g) = some g := by
  have hlength : (Nat.toDigits 16 g).length ≤ 4 := Nat.toDigits_length 16 g 4 (by decide) h
  unfold group?
  rw [if_neg (by simpa [Nat.toDigits_ne_nil] using hlength)]
  exact digitsOfBase?_toDigits (by decide) (by decide) g

theorem groups?_toDigits (mayEmbed : Bool) {groups : List Nat} (h : Fit groups) :
    groups? mayEmbed (groups.map (Nat.toDigits 16)) = some groups := by
  induction groups with
  | nil => rfl
  | cons g groups ih =>
    obtain ⟨hg, hgroups⟩ := List.forall_mem_cons.mp h
    cases groups with
    | nil =>
      have hdot : (Nat.toDigits 16 g).contains '.' = false := by
        simpa using not_mem_toDigits (by decide) g
      simp only [List.map_cons, List.map_nil, groups?, hdot, Bool.and_false, group?_toDigits hg]
      rfl
    | cons g' groups =>
      rw [List.map_cons, List.map_cons, groups?, ← List.map_cons, ih hgroups, group?_toDigits hg]
      · rfl
      · simp

theorem side?_groupsText (mayEmbed : Bool) {groups : List Nat} (h : Fit groups) :
    side? mayEmbed (groupsText groups) = some groups := by
  unfold side?
  cases groups with
  | nil => rfl
  | cons g groups =>
    have hsplit : (groupsText (g :: groups)).splitOn ':' = (g :: groups).map (Nat.toDigits 16) := by
      refine List.splitOn_intercalate ':' (fun part hpart => ?_) (by simp)
      obtain ⟨g', -, rfl⟩ := List.mem_map.mp hpart
      exact not_mem_toDigits (by decide) g'
    have hne : groupsText (g :: groups) ≠ [] := by
      intro hempty
      rw [hempty, List.splitOn_nil] at hsplit
      simp only [List.map_cons, List.cons.injEq] at hsplit
      exact Nat.toDigits_ne_nil hsplit.1.symm
    rw [if_neg (by simpa using hne), hsplit]
    exact groups?_toDigits mayEmbed h

/-! ## The gap -/

theorem splitGap?_cons {c : Char} {rest : List Char} (h : c = ':' → rest.head? ≠ some ':') :
    splitGap? (c :: rest) = (splitGap? rest).map fun (before, after) => (c :: before, after) := by
  rw [splitGap?]
  rintro others rfl rfl
  exact h rfl rfl

theorem splitGap?_append {text : List Char} (h : ':' ∉ text) (rest : List Char) :
    splitGap? (text ++ rest) = (splitGap? rest).map fun (before, after) => (text ++ before, after) := by
  induction text with
  | nil => simp
  | cons c text ih =>
    obtain ⟨hc, htext⟩ := List.ne_and_not_mem_of_not_mem_cons h
    rw [List.cons_append, splitGap?_cons fun h => absurd h.symm hc, ih htext, Option.map_map]
    rfl

theorem exists_groupsText_eq_cons (g : Nat) (groups : List Nat) :
    ∃ c rest, groupsText (g :: groups) = c :: rest ∧ c ≠ ':' := by
  have hcolon := not_mem_toDigits (c := ':') (by decide) g
  cases hdigits : Nat.toDigits 16 g with
  | nil => exact absurd hdigits Nat.toDigits_ne_nil
  | cons c digits =>
    rw [hdigits] at hcolon
    refine ⟨c, ?_⟩
    unfold groupsText
    rw [List.map_cons, hdigits, List.intercalate_cons_cons_left]
    exact ⟨_, rfl, fun h => hcolon (h ▸ List.mem_cons_self)⟩

/-- No gap is found within a run of groups. -/
theorem splitGap?_groupsText_append (groups : List Nat) (rest : List Char) :
    splitGap? (groupsText groups ++ rest) =
      (splitGap? rest).map fun (before, after) => (groupsText groups ++ before, after) := by
  induction groups with
  | nil => simp [groupsText]
  | cons g groups ih =>
    have hcolon := not_mem_toDigits (c := ':') (by decide) g
    cases groups with
    | nil =>
      unfold groupsText
      rw [List.map_singleton, List.intercalate_singleton]
      exact splitGap?_append hcolon rest
    | cons g' groups =>
      have htext : groupsText (g :: g' :: groups) =
          Nat.toDigits 16 g ++ [':'] ++ groupsText (g' :: groups) := by
        unfold groupsText
        rw [List.map_cons, List.intercalate_cons_of_ne_nil (by simp)]
      obtain ⟨c, others, hothers, hc⟩ := exists_groupsText_eq_cons g' groups
      have hhead : (groupsText (g' :: groups) ++ rest).head? ≠ some ':' := by
        rw [hothers]
        simpa using hc
      rw [htext, List.append_assoc, List.append_assoc, splitGap?_append hcolon, List.singleton_append,
        splitGap?_cons fun _ => hhead, ih, Option.map_map, Option.map_map]
      congr 1
      funext ⟨before, after⟩
      simp

theorem address6?_groupsText {groups : List Nat} (hlength : groups.length = 8) (h : Fit groups) :
    address6? (groupsText groups) = some groups := by
  have hgap : splitGap? (groupsText groups) = none := by
    have h := splitGap?_groupsText_append groups []
    rwa [List.append_nil] at h
  unfold address6?
  simp only [hgap, side?_groupsText true h]
  simp [hlength]

theorem address6?_gap {front back : List Nat} (hfront : Fit front) (hback : Fit back)
    (hlength : front.length + back.length ≤ 7) :
    address6? (groupsText front ++ [':', ':'] ++ groupsText back) =
      some (front ++ List.replicate (8 - front.length - back.length) 0 ++ back) := by
  have hgap : splitGap? (groupsText front ++ [':', ':'] ++ groupsText back) =
      some (groupsText front, groupsText back) := by
    rw [List.append_assoc, splitGap?_groupsText_append]
    simp [splitGap?]
  unfold address6?
  simp only [hgap, side?_groupsText _ hfront, side?_groupsText _ hback]
  simp [hlength]

/-- The run that is left out is made of zeros. -/
theorem longestRun_zeros (groups : List Nat) :
    (longestRun groups).2 ≤ zeroRun (groups.drop (longestRun groups).1) := by
  unfold longestRun
  refine List.foldlRecOn (motive := fun best : Nat × Nat => best.2 ≤ zeroRun (groups.drop best.1))
    _ _ (Nat.zero_le _) fun best hbest i _ => ?_
  dsimp only
  split
  · exact Nat.le_refl _
  · exact hbest

theorem eq_replicate_append_of_le_zeroRun {groups : List Nat} {n : Nat} (h : n ≤ zeroRun groups) :
    groups = List.replicate n 0 ++ groups.drop n := by
  induction groups generalizing n with
  | nil =>
    obtain rfl : n = 0 := Nat.le_zero.mp h
    rfl
  | cons g groups ih =>
    cases n with
    | zero => rfl
    | succ n =>
      by_cases hg : g = 0
      · subst hg
        have hrun : n ≤ zeroRun groups := by simpa [zeroRun] using h
        rw [List.replicate_succ, List.cons_append, List.drop_succ_cons, ← ih hrun]
      · simp [zeroRun, hg] at h

theorem drop_longestRun {groups : List Nat} {start length : Nat} (h : longestRun groups = (start, length)) :
    groups.drop start = List.replicate length 0 ++ groups.drop (start + length) := by
  have hzeros := longestRun_zeros groups
  rw [h] at hzeros
  rw [← List.drop_drop]
  exact eq_replicate_append_of_le_zeroRun hzeros

theorem of_mem_groupsText {groups : List Nat} {c : Char} (h : c ∈ groupsText groups) :
    c = ':' ∨ ∃ d < 16, c = d.digitChar := by
  refine (of_mem_intercalate h).imp_right ?_
  rintro ⟨part, hpart, hc⟩
  obtain ⟨g, -, rfl⟩ := List.mem_map.mp hpart
  exact exists_of_mem_toDigits (by decide) hc

/-- What is written of an address stands in brackets and is read as that address. -/
theorem exists_toList_writeAddress6 {groups : List Nat} (hlength : groups.length = 8) (h : Fit groups) :
    ∃ inner, (writeAddress6 groups).toList = '[' :: (inner ++ [']']) ∧ address6? inner = some groups ∧
      ∀ c ∈ inner, c = ':' ∨ ∃ d < 16, c = d.digitChar := by
  unfold writeAddress6
  cases hrun : longestRun groups with
  | mk start length =>
  dsimp only
  split
  · refine ⟨groupsText groups, ?_, address6?_groupsText hlength h, fun c => of_mem_groupsText⟩
    rw [String.toList_append, String.toList_append, toList_writeGroups]
    rfl
  next hlong =>
    have hzeros := drop_longestRun hrun
    have hsizes : (groups.take start).length + length + (groups.drop (start + length)).length = 8 := by
      have hboth : (groups.take start ++ groups.drop start).length = 8 := by
        rw [List.take_append_drop, hlength]
      rw [hzeros, List.length_append, List.length_append, List.length_replicate] at hboth
      omega
    have hfront : Fit (groups.take start) := fun g hg => h g (List.mem_of_mem_take hg)
    have hback : Fit (groups.drop (start + length)) := fun g hg => h g (List.mem_of_mem_drop hg)
    have hread := address6?_gap hfront hback (by omega)
    -- As many zeros are put into the gap as were left out.
    have hcount : 8 - (groups.take start).length - (groups.drop (start + length)).length = length := by
      omega
    have hgroups : groups.take start ++ List.replicate length 0 ++ groups.drop (start + length) = groups := by
      rw [List.append_assoc, ← hzeros, List.take_append_drop]
    rw [hcount, hgroups] at hread
    refine ⟨_, ?_, hread, ?_⟩
    · rw [String.toList_append, String.toList_append, String.toList_append, String.toList_append,
        toList_writeGroups, toList_writeGroups]
      simp
    · intro c hc
      simp only [List.mem_append, List.mem_cons, List.not_mem_nil, or_false, or_self] at hc
      obtain (hc | hc) | hc := hc
      · exact of_mem_groupsText hc
      · exact .inl hc
      · exact of_mem_groupsText hc

end Telemetry.Url.Host
