-- SUMMARY: The canonical text of a host is read as itself, and it ends where the port begins.
import Mathlib
import Telemetry.Proofs.Text.Hex
import Telemetry.Proofs.Url.Address
import Telemetry.Proofs.Url.Percent
import Telemetry.Url.Basic

/-!
# Hosts in their canonical form

Whatever a host was written like, what is made of it is a fixed point of the reader: a name in ASCII, four
decimal bytes, or an address in brackets. Only printed characters stand in it, none of which ends a host, so
it is also found again in front of a port.
-/

namespace Telemetry

theorem Utf8.decode?_toUTF8 (text : String) : Utf8.decode? text.toUTF8.toList = some text := by
  have hread : (text.toList.map some).mapM id = some text.toList := by
    rw [mapM_eq_some_iff, List.forall₂_map_left_iff, List.forall₂_same]
    exact fun _ _ => rfl
  unfold Utf8.decode?
  rw [Utf8.symbols_toUTF8, hread, Option.map_some, String.ofList_toList]

namespace Url

/-! ## Finding the host -/

/-- The host is read on over all characters that are no brackets, and outside of brackets no colons. -/
theorem splitHost_append {inBrackets : Bool} {text : List Char}
    (h : ∀ c ∈ text, c ≠ '[' ∧ c ≠ ']' ∧ (inBrackets = false → c ≠ ':')) (rest : List Char) :
    splitHost inBrackets (text ++ rest) =
      (text ++ (splitHost inBrackets rest).1, (splitHost inBrackets rest).2) := by
  induction text with
  | nil => rfl
  | cons c text ih =>
    obtain ⟨⟨hopen, hclose, hcolon⟩, htext⟩ := List.forall_mem_cons.mp h
    have hgo : ¬ ((decide (c = ':') && !inBrackets) = true) := by
      cases inBrackets <;> simp_all
    rw [List.cons_append, splitHost, if_neg hgo, if_neg hopen, if_neg hclose, ih htext]
    rfl

theorem splitHost_of_head? {rest : List Char} (h : ∀ c ∈ rest.head?, c = ':') :
    splitHost false rest = ([], rest) := by
  cases rest with
  | nil => rfl
  | cons c rest =>
    obtain rfl := h c rfl
    rfl

/-- The character may stand in front of a path: it is printed, and it does not end the authority. -/
def IsInFront (c : Char) : Prop :=
  IsPrinted c ∧ endsAuthority c = false

instance : DecidablePred IsInFront :=
  fun _ => instDecidableAnd

namespace Host

/-- The character may stand in front of a port: no credentials and no path begin at it. -/
def IsWithin (c : Char) : Prop :=
  IsInFront c ∧ c ≠ '@'

instance : DecidablePred IsWithin :=
  fun _ => instDecidableAnd

variable {toAscii? : ToAscii}

/-- The text of a host as it is written. -/
structure IsCanonical (toAscii? : ToAscii) (text : List Char) : Prop where
  within : ∀ c ∈ text, IsWithin c
  /-- The text is the whole host before a port. -/
  closed : ∀ rest : List Char, (∀ c ∈ rest.head?, c = ':') →
    splitHost false (text ++ rest) = (text, rest)
  stays : read toAscii? text = .ok (String.ofList text)

theorem IsCanonical.ne_nil {text : List Char} (h : IsCanonical toAscii? text) : text ≠ [] := by
  rintro rfl
  cases h.stays

/-! ## Names -/

theorem isWithin_of_isPlain {c : Char} (h : Domain.IsPlain c) :
    IsWithin c ∧ c ≠ '[' ∧ c ≠ ']' ∧ c ≠ ':' ∧ UInt8.ofNat c.toNat ≠ 0x25 := by
  have hall : ∀ c : Char, c.toNat < 0x80 → Domain.IsPlain c →
      IsWithin c ∧ c ≠ '[' ∧ c ≠ ']' ∧ c ≠ ':' ∧ UInt8.ofNat c.toNat ≠ 0x25 :=
    forall_ascii (by decide +kernel)
  exact hall c h.1 h

theorem closed_of_isPlain {text : List Char} (h : ∀ c ∈ text, Domain.IsPlain c) {rest : List Char}
    (hrest : ∀ c ∈ rest.head?, c = ':') : splitHost false (text ++ rest) = (text, rest) := by
  have hchars : ∀ c ∈ text, c ≠ '[' ∧ c ≠ ']' ∧ (false = false → c ≠ ':') := fun c hc =>
    have ⟨_, hopen, hclose, hcolon, _⟩ := isWithin_of_isPlain (h c hc)
    ⟨hopen, hclose, fun _ => hcolon⟩
  rw [splitHost_append hchars, splitHost_of_head? hrest, List.append_nil]

/-- A name in ASCII is the text that its bytes stand for. -/
theorem decode?_of_isPlain {text : List Char} (h : ∀ c ∈ text, Domain.IsPlain c) :
    Utf8.decode? (percentDecode (fun _ => false) (String.ofList text).toUTF8.toList) =
      some (String.ofList text) := by
  have hbytes : ∀ byte ∈ (String.ofList text).toUTF8.toList, byte ≠ 0x25 := by
    rw [Hex.toUTF8_of_lt (by simpa using fun c hc => (h c hc).1), String.toList_ofList]
    intro byte hbyte
    obtain ⟨c, hc, rfl⟩ := List.mem_map.mp hbyte
    exact (isWithin_of_isPlain (h c hc)).2.2.2.2
  have hdecode : percentDecode (fun _ => false) ((String.ofList text).toUTF8.toList ++ []) =
      (String.ofList text).toUTF8.toList ++ [] := percentDecode_append_of_forall hbytes []
  rw [List.append_nil] at hdecode
  rw [hdecode, Utf8.decode?_toUTF8]

theorem read_of_isName {name : List Char} (h : Domain.IsName toAscii? name) (hne : name ≠ []) :
    read toAscii? name =
      if endsInNumber name then
        (address4? name).elim (.error .invalidAddress4) fun address => .ok (writeAddress4 address)
      else .ok (String.ofList name) := by
  unfold read
  split
  · exact absurd rfl hne
  next rest =>
    exact absurd rfl (isWithin_of_isPlain (h.plain '[' List.mem_cons_self)).2.1
  next =>
    simp only [decode?_of_isPlain h.plain, Option.bind_some, String.toList_ofList, h.stays]
    cases address4? name <;> rfl

theorem isCanonical_of_isName {name : List Char} (h : Domain.IsName toAscii? name) (hne : name ≠ [])
    (hnumber : endsInNumber name = false) : IsCanonical toAscii? name where
  within c hc := (isWithin_of_isPlain (h.plain c hc)).1
  closed _ hrest := closed_of_isPlain h.plain hrest
  stays := by rw [read_of_isName h hne, hnumber]; rfl

/-! ## Addresses -/

theorem writeAddress4_ne_nil (address : Nat) : (writeAddress4 address).toList ≠ [] := by
  intro hempty
  have hends := endsInNumber_writeAddress4 address
  rw [hempty] at hends
  cases hends

theorem isName_writeAddress4 (hnames : Domain.Lawful toAscii?) (address : Nat) :
    Domain.IsName toAscii? (writeAddress4 address).toList := by
  have hne := writeAddress4_ne_nil address
  rw [toList_writeAddress4] at hne ⊢
  exact hnames.isName_intercalate (parts4_ne_nil address) (fun part hpart => (of_mem_parts4 hpart).2) hne

theorem isCanonical_writeAddress4 (hnames : Domain.Lawful toAscii?) (address : Nat) :
    IsCanonical toAscii? (writeAddress4 address).toList where
  within c hc := (isWithin_of_isPlain ((isName_writeAddress4 hnames address).plain c hc)).1
  closed _ hrest := closed_of_isPlain (isName_writeAddress4 hnames address).plain hrest
  stays := by
    obtain ⟨number, hread, hwrite⟩ := address4?_writeAddress4 address
    rw [read_of_isName (isName_writeAddress4 hnames address) (writeAddress4_ne_nil address),
      endsInNumber_writeAddress4, if_pos rfl, hread, Option.elim_some, hwrite, String.ofList_toList]

theorem isCanonical_writeAddress6 {groups : List Nat} (hlength : groups.length = 8) (h : Fit groups) :
    IsCanonical toAscii? (writeAddress6 groups).toList := by
  obtain ⟨inner, htext, hread, hchars⟩ := exists_toList_writeAddress6 hlength h
  have hinner : ∀ c ∈ inner, IsWithin c ∧ c ≠ '[' ∧ c ≠ ']' := by
    have hdigit : ∀ d : Fin 16,
        IsWithin d.val.digitChar ∧ d.val.digitChar ≠ '[' ∧ d.val.digitChar ≠ ']' := by decide +kernel
    intro c hc
    obtain rfl | ⟨d, hd, rfl⟩ := hchars c hc
    · decide
    · exact hdigit ⟨d, hd⟩
  rw [htext]
  constructor
  · intro c hc
    obtain rfl | hc := List.mem_cons.mp hc
    · decide
    obtain hc | hc := List.mem_append.mp hc
    · exact (hinner c hc).1
    · obtain rfl := List.mem_singleton.mp hc
      decide
  · intro rest hrest
    have hclose : splitHost true (']' :: rest) = ([']'], rest) := by
      simp [splitHost, splitHost_of_head? hrest]
    have hbrackets : splitHost true (inner ++ ']' :: rest) = (inner ++ [']'], rest) := by
      have hopen : ∀ c ∈ inner, c ≠ '[' ∧ c ≠ ']' ∧ (true = false → c ≠ ':') := fun c hc =>
        ⟨(hinner c hc).2.1, (hinner c hc).2.2, fun h => Bool.noConfusion h⟩
      rw [splitHost_append hopen, hclose]
    rw [List.cons_append, List.append_assoc, List.singleton_append]
    simp [splitHost, hbrackets]
  · have hlast : (inner ++ [']']).getLast? = some ']' := List.getLast?_concat
    unfold read
    simp only [hlast, List.dropLast_concat, hread, if_true]
    rw [← htext, String.ofList_toList]

/-- The text of a host that was read is read as itself. -/
theorem isCanonical_of_read (hnames : Domain.Lawful toAscii?) {text : List Char} {host : String}
    (h : read toAscii? text = .ok host) : IsCanonical toAscii? host.toList := by
  unfold read at h
  split at h
  · cases h
  · split at h
    · split at h
      next groups hgroups =>
        obtain rfl := Except.ok.inj h
        have := fit_of_address6? hgroups
        exact isCanonical_writeAddress6 this.1 this.2
      · cases h
    · cases h
  · dsimp only at h
    split at h
    · cases h
    · cases h
    next name hne hname =>
      obtain ⟨decoded, -, hascii⟩ := Option.bind_eq_some_iff.mp hname
      have hself := hnames.isName hascii
      split at h
      next hnumber =>
        split at h
        next address haddress =>
          obtain rfl := Except.ok.inj h
          exact isCanonical_writeAddress4 hnames address
        · cases h
      next hnumber =>
        obtain rfl := Except.ok.inj h
        rw [String.toList_ofList]
        exact isCanonical_of_isName hself (fun h => hne h) (by simpa using hnumber)

end Host
end Url
end Telemetry
