-- SUMMARY: Reading a web address gives canonical parts, which come back from what is written of them.
import Mathlib
import Telemetry.Proofs.Url.Host
import Telemetry.Proofs.Url.Path
import Telemetry.Text.Blank

/-!
# Web addresses in their canonical form

A reader accepts many texts for one address. Whatever it was given, the parts it returns are canonical:
nothing is left to encode, the host is read as itself, the port is not the one of the scheme, and the path is
resolved. Canonical parts come back from what is written of them. The text in front of the path may stand for
itself, so the reader is followed over that front first, with any text behind it that the front ends at.
-/

namespace Telemetry

theorem Text.trimChars_of_forall {drop : Char → Bool} {chars : List Char}
    (h : ∀ c ∈ chars, drop c = false) : Text.trimChars drop chars = chars := by
  have hedge : ∀ cs : List Char, (∀ c ∈ cs, drop c = false) → cs.dropWhile drop = cs := by
    intro cs hcs
    cases cs with
    | nil => rfl
    | cons c cs => exact List.dropWhile_cons_of_neg (by simpa using hcs c List.mem_cons_self)
  unfold Text.trimChars
  rw [hedge chars h, hedge chars.reverse (by simpa using h), List.reverse_reverse]

namespace Url

/-! ## Canonical addresses -/

variable {toAscii? : ToAscii}

/-- The parts of an address as a reader returns them. -/
structure IsCanonical (toAscii? : ToAscii) (u : Url) : Prop where
  web : isWebScheme u.scheme = true
  username : IsEncoded .userinfo u.username
  password : ∀ p ∈ u.password, p ≠ "" ∧ IsEncoded .userinfo p
  host : Host.IsCanonical toAscii? u.host.toList
  port : ∀ p ∈ u.port, p ≤ 65535 ∧ defaultPort? u.scheme ≠ some p
  rooted : u.path ≠ []
  path : ∀ s ∈ u.path, IsSegment s
  query : ∀ q ∈ u.query, IsEncoded .query q
  fragment : ∀ f ∈ u.fragment, IsEncoded .fragment f

theorem readCredentials_encoded (credentials : List Char) :
    IsEncoded .userinfo (readCredentials credentials).1 ∧
      ∀ p ∈ (readCredentials credentials).2, p ≠ "" ∧ IsEncoded .userinfo p := by
  unfold readCredentials
  dsimp only
  refine ⟨isEncoded_encodePart (by decide) _, ?_⟩
  split
  · simp
  next hne =>
    intro p hp
    obtain rfl := Option.some.inj hp
    exact ⟨encodePart_ne_empty (by simpa using hne), isEncoded_encodePart (by decide) _⟩

theorem le_of_readPort {scheme : String} {text : List Char} {port : Option Nat}
    (h : readPort scheme text = .ok port) : ∀ p ∈ port, p ≤ 65535 ∧ defaultPort? scheme ≠ some p := by
  unfold readPort at h
  split at h
  · split at h
    · cases h
    dsimp only at h
    split at h
    · cases h
    next hle =>
      split at h
      · obtain rfl := Except.ok.inj h
        simp
      next hport =>
        obtain rfl := Except.ok.inj h
        simp only [Bool.or_eq_true, decide_eq_true_eq, not_or] at hport
        intro p hp
        obtain rfl := Option.some.inj hp
        exact ⟨Nat.not_lt.mp hle, hport.2⟩
  · obtain rfl := Except.ok.inj h
    simp

/-- The parts of an address are read one by one: credentials, host and port in what is in front of the path,
    and the rest behind it. -/
theorem readAfterScheme_eq (scheme : String) (text : List Char) :
    readAfterScheme toAscii? scheme text =
      let cut := (text.dropWhile fun c => c = '/' || c = '\\').span fun c => !endsAuthority c
      let named := splitCredentials cut.1
      let hosted := splitHost false named.2
      let credentials := (named.1.map readCredentials).getD ("", none)
      let tail := readTail cut.2
      (Host.read toAscii? hosted.1).bind fun host =>
        (readPort scheme hosted.2).bind fun port =>
          .ok
            { scheme, host, port
              username := credentials.1
              password := credentials.2
              path := tail.1
              query := tail.2.1
              fragment := tail.2.2 } :=
  rfl

/-- Only canonical parts are read. -/
theorem isCanonical_of_readAfterScheme (hnames : Domain.Lawful toAscii?) {scheme : String}
    (hscheme : isWebScheme scheme = true) {text : List Char} {u : Url}
    (h : readAfterScheme toAscii? scheme text = .ok u) : u.IsCanonical toAscii? := by
  rw [readAfterScheme_eq] at h
  extract_lets cut named hosted credentials tail at h
  cases hhost : Host.read toAscii? hosted.1 with
  | error fault =>
    rw [hhost] at h
    cases h
  | ok host =>
    cases hport : readPort scheme hosted.2 with
    | error fault =>
      rw [hhost, hport] at h
      cases h
    | ok port =>
      rw [hhost, hport] at h
      obtain rfl := Except.ok.inj h
      have hcredentials : IsEncoded .userinfo credentials.1 ∧
          ∀ p ∈ credentials.2, p ≠ "" ∧ IsEncoded .userinfo p := by
        unfold credentials
        cases named.1 with
        | none => exact ⟨isEncoded_empty _, by simp⟩
        | some text => exact readCredentials_encoded text
      exact
        { web := hscheme
          username := hcredentials.1
          password := hcredentials.2
          host := Host.isCanonical_of_read hnames hhost
          port := le_of_readPort hport
          rooted := readPath_ne_nil _
          path := isSegment_of_mem_readPath _
          query := isEncoded_of_mem_map (by decide) _
          fragment := isEncoded_of_mem_map (by decide) _ }

theorem isCanonical_of_readWeb? (hnames : Domain.Lawful toAscii?) {text : String} {u : Url}
    (h : readWeb? toAscii? text = some (.ok u)) : u.IsCanonical toAscii? := by
  unfold readWeb? at h
  split at h
  · split at h
    next hscheme => exact isCanonical_of_readAfterScheme hnames hscheme (Option.some.inj h)
    · cases h
  · cases h

/-! ## The front of an address -/

theorem toList_marked (mark : String) (c : Char) (hmark : mark.toList = [c]) (part : Option String) :
    ((part.map (mark ++ ·)).getD "").toList = marked c part := by
  cases part with
  | none => rfl
  | some text =>
    rw [Option.map_some, Option.getD_some, String.toList_append, hmark]
    rfl

/-- The credentials without the sign that ends them. -/
def credentialsText (u : Url) : List Char :=
  u.username.toList ++ marked ':' u.password

/-- What is written of a port. -/
def portText (port : Option Nat) : List Char :=
  match port with
  | some p => ':' :: Nat.toDigits 10 p
  | none => []

/-- What stands between the slashes and the path. -/
def authorityText (u : Url) : List Char :=
  (if u.credentialsText = [] then [] else u.credentialsText ++ ['@']) ++ (u.host.toList ++ portText u.port)

/-- The text in front of the path. -/
def frontText (u : Url) : List Char :=
  u.scheme.toList ++ ':' :: '/' :: '/' :: u.authorityText

theorem toList_writeCredentials (u : Url) :
    u.writeCredentials.toList = if u.credentialsText = [] then [] else u.credentialsText ++ ['@'] := by
  have hpassword := toList_marked ":" ':' rfl u.password
  unfold writeCredentials credentialsText
  dsimp only
  rw [apply_ite String.toList, String.toList_append, String.toList_append, hpassword]
  congr 1
  rw [← hpassword]
  simp

theorem toList_writeAuthority (u : Url) : u.writeAuthority.toList = u.host.toList ++ portText u.port := by
  unfold writeAuthority portText
  rw [String.toList_append]
  cases u.port with
  | none => rfl
  | some p => simp

theorem toList_write (u : Url) : u.write.toList = u.frontText ++ tailText u.path u.query u.fragment := by
  unfold write requestTarget frontText authorityText tailText
  simp only [String.toList_append, toList_writeCredentials, toList_writeAuthority, toList_writePath,
    toList_marked "?" '?' rfl, toList_marked "#" '#' rfl]
  simp

/-! ## Reading the front -/

theorem splitCredentials_of_not_mem {text : List Char} (h : '@' ∉ text) :
    splitCredentials text = (none, text) := by
  have hspan : text.reverse.span (· ≠ '@') = (text.reverse, []) :=
    span_of_forall fun c hc => decide_eq_true fun hat => h (hat ▸ List.mem_reverse.mp hc)
  unfold splitCredentials
  rw [hspan]
  dsimp only
  rw [List.reverse_reverse]

theorem splitCredentials_append {text : List Char} (h : '@' ∉ text) (credentials : List Char) :
    splitCredentials (credentials ++ ['@'] ++ text) = (some credentials, text) := by
  have hspan : (credentials ++ ['@'] ++ text).reverse.span (· ≠ '@') =
      (text.reverse, '@' :: credentials.reverse) := by
    rw [List.reverse_append, List.reverse_append]
    exact span_append (fun c hc => decide_eq_true fun hat => h (hat ▸ List.mem_reverse.mp hc)) (by simp)
  unfold splitCredentials
  rw [hspan]
  dsimp only
  rw [List.reverse_reverse, List.reverse_reverse]

theorem readCredentials_credentialsText {u : Url} (h : u.IsCanonical toAscii?) :
    readCredentials u.credentialsText = (u.username, u.password) := by
  have hname : ∀ c ∈ u.username.toList, decide (c ≠ ':') = true := fun c hc =>
    decide_eq_true (ne_of_encodes (h.username c hc) (by decide))
  have hspan : u.credentialsText.span (· ≠ ':') = (u.username.toList, marked ':' u.password) := by
    refine span_append hname ?_
    cases u.password <;> simp [marked]
  unfold readCredentials
  rw [hspan]
  dsimp only
  rw [h.username.encodePart_eq]
  cases hpassword : u.password with
  | none => rfl
  | some p =>
    obtain ⟨hne, hencoded⟩ := h.password p hpassword
    have hcons : p.toList.isEmpty = false := by simpa using hne
    simp only [marked, List.drop_one, List.tail_cons, hcons, hencoded.encodePart_eq]
    rfl

theorem readPort_portText {u : Url} (h : u.IsCanonical toAscii?) :
    readPort u.scheme (portText u.port) = .ok u.port := by
  cases hport : u.port with
  | none => rfl
  | some p =>
    obtain ⟨hle, hdefault⟩ := h.port p hport
    have hdigits : (Nat.toDigits 10 p).all Char.isDigit = true :=
      List.all_eq_true.mpr fun c => isDigit_of_mem_toDigits
    have hvalue : (Nat.toDigits 10 p).foldl (fun acc c => acc * 10 + (c.toNat - '0'.toNat)) 0 = p :=
      digitsValue_toDigits p
    unfold readPort portText
    simp only [hdigits, hvalue]
    simp [Nat.not_lt.mpr hle, hdefault, Nat.toDigits_ne_nil]

theorem head?_portText (port : Option Nat) : ∀ c ∈ (portText port).head?, c = ':' := by
  cases port <;> simp [portText]

theorem isInFront_of_encodes {c : Char} (h : Part.userinfo.encodes c = false) : IsInFront c := by
  refine ⟨isPrinted_of_encodes h, ?_⟩
  have hmarks : ∀ mark ∈ ['/', '\\', '?', '#'], c ≠ mark := by
    intro mark hmark
    refine ne_of_encodes h ?_
    simp only [List.mem_cons, List.not_mem_nil, or_false] at hmark
    obtain rfl | rfl | rfl | rfl := hmark <;> decide
  simp only [List.forall_mem_cons] at hmarks
  simp [endsAuthority, hmarks]

theorem isWithin_of_mem_portText {port : Option Nat} : ∀ c ∈ portText port, Host.IsWithin c := by
  cases port with
  | none => simp [portText]
  | some p =>
    refine List.forall_mem_cons.mpr ⟨by decide, fun c hc => ?_⟩
    exact (Host.isWithin_of_isPlain (Domain.plain_of_isDigit (isDigit_of_mem_toDigits hc)).1).1

theorem isWithin_of_mem_hostText {u : Url} (h : u.IsCanonical toAscii?) :
    ∀ c ∈ u.host.toList ++ portText u.port, Host.IsWithin c := fun c hc =>
  (List.mem_append.mp hc).elim (h.host.within c) (isWithin_of_mem_portText c)

theorem isInFront_of_mem_credentialsText {u : Url} (h : u.IsCanonical toAscii?) :
    ∀ c ∈ u.credentialsText, IsInFront c := by
  intro c hc
  obtain hc | hc := List.mem_append.mp hc
  · exact isInFront_of_encodes (h.username c hc)
  · cases hpassword : u.password with
    | none =>
      rw [hpassword] at hc
      cases hc
    | some p =>
      rw [hpassword] at hc
      obtain rfl | hc := List.mem_cons.mp hc
      · exact ⟨by decide, rfl⟩
      · exact isInFront_of_encodes ((h.password p hpassword).2 c hc)

theorem isInFront_of_mem_authorityText {u : Url} (h : u.IsCanonical toAscii?) :
    ∀ c ∈ u.authorityText, IsInFront c := by
  intro c hc
  obtain hc | hc := List.mem_append.mp hc
  · split at hc
    · cases hc
    · obtain hc | hc := List.mem_append.mp hc
      · exact isInFront_of_mem_credentialsText h c hc
      · obtain rfl := List.mem_singleton.mp hc
        exact ⟨by decide, rfl⟩
  · exact (isWithin_of_mem_hostText h c hc).1

theorem authorityText_ne_nil {u : Url} (h : u.IsCanonical toAscii?) : u.authorityText ≠ [] := by
  have hhost := h.host.ne_nil
  simp [authorityText, hhost]

theorem splitCredentials_authorityText {u : Url} (h : u.IsCanonical toAscii?) :
    splitCredentials u.authorityText =
      (if u.credentialsText = [] then none else some u.credentialsText,
        u.host.toList ++ portText u.port) := by
  have hat : '@' ∉ u.host.toList ++ portText u.port := fun hmem =>
    (isWithin_of_mem_hostText h '@' hmem).2 rfl
  unfold authorityText
  split
  · exact splitCredentials_of_not_mem hat
  · exact splitCredentials_append hat _

theorem getD_readCredentials {u : Url} (h : u.IsCanonical toAscii?) :
    ((if u.credentialsText = [] then none else some u.credentialsText).map readCredentials).getD ("", none) =
      (u.username, u.password) := by
  split
  next hempty =>
    -- Without credentials there is neither a user name nor a password.
    have hread := readCredentials_credentialsText h
    rw [hempty] at hread
    exact hread
  · exact readCredentials_credentialsText h

/-- The address with what stands in the text behind its host. -/
def withTail (u : Url) (text : List Char) : Url :=
  { u with path := (readTail text).1, query := (readTail text).2.1, fragment := (readTail text).2.2 }

theorem frontText_withTail (u : Url) (text : List Char) : (u.withTail text).frontText = u.frontText :=
  rfl

/-- The front of an address is read in front of any text that it ends at. -/
theorem readAfterScheme_frontText {u : Url} (h : u.IsCanonical toAscii?) {tail : List Char}
    (htail : ∀ c ∈ tail.head?, endsAuthority c = true) :
    readAfterScheme toAscii? u.scheme ('/' :: '/' :: (u.authorityText ++ tail)) = .ok (u.withTail tail) := by
  have hfront := isInFront_of_mem_authorityText h
  have hdrop : ('/' :: '/' :: (u.authorityText ++ tail)).dropWhile (fun c => c = '/' || c = '\\') =
      u.authorityText ++ tail := by
    obtain ⟨c, rest, hcons⟩ := List.exists_cons_of_ne_nil (authorityText_ne_nil h)
    have hc := (hfront c (hcons ▸ List.mem_cons_self)).2
    simp only [endsAuthority, Bool.or_eq_false_iff, decide_eq_false_iff_not] at hc
    simp [hcons, List.dropWhile, hc]
  have hspan : (u.authorityText ++ tail).span (fun c => !endsAuthority c) = (u.authorityText, tail) :=
    span_append (fun c hc => by rw [(hfront c hc).2]; rfl) fun c hc => by rw [htail c hc]; rfl
  rw [readAfterScheme_eq, hdrop, hspan]
  dsimp only
  rw [splitCredentials_authorityText h, getD_readCredentials h]
  dsimp only
  rw [h.host.closed _ (head?_portText u.port)]
  dsimp only
  rw [h.host.stays, readPort_portText h, String.ofList_toList]
  rfl

/-! ## Reading what was written -/

theorem cleanInput_of_isPrinted {text : List Char} (h : ∀ c ∈ text, IsPrinted c) :
    cleanInput (String.ofList text) = text := by
  have hedges : Text.trimChars (fun c => c.toNat ≤ 0x20) text = text :=
    Text.trimChars_of_forall fun c hc => decide_eq_false (Nat.not_le.mpr (h c hc).1)
  have hkept : ∀ c ∈ text, (decide (c ≠ '\t') && decide (c ≠ '\n') && decide (c ≠ '\r')) = true := by
    intro c hc
    have hlow := (h c hc).1
    simp only [Bool.and_eq_true, decide_eq_true_eq]
    refine ⟨⟨?_, ?_⟩, ?_⟩ <;> rintro rfl <;> exact absurd hlow (by decide)
  unfold Text.trimChars at hedges
  unfold cleanInput
  dsimp only
  rw [String.toList_ofList, hedges]
  exact List.filter_eq_self.mpr hkept

theorem splitScheme?_append {scheme : String} (h : isWebScheme scheme = true) (rest : List Char) :
    splitScheme? (scheme.toList ++ ':' :: rest) = some (scheme, rest) := by
  have hscheme : scheme = "http" ∨ scheme = "https" := by simpa [isWebScheme] using h
  have hspan : (scheme.toList ++ ':' :: rest).span isSchemeChar = (scheme.toList, ':' :: rest) := by
    have hchars : scheme.toList.all isSchemeChar = true := by
      obtain rfl | rfl := hscheme <;> decide
    refine span_append (List.all_eq_true.mp hchars) ?_
    simp +decide
  unfold splitScheme?
  rw [hspan]
  obtain rfl | rfl := hscheme <;> rfl

theorem isPrinted_of_mem_scheme {scheme : String} (h : isWebScheme scheme = true) :
    ∀ c ∈ scheme.toList, IsPrinted c := by
  have hscheme : scheme = "http" ∨ scheme = "https" := by simpa [isWebScheme] using h
  have hall : (scheme.toList.all fun c => IsPrinted c) = true := by
    obtain rfl | rfl := hscheme <;> decide
  exact fun c hc => of_decide_eq_true (List.all_eq_true.mp hall c hc)

theorem isPrinted_of_mem_frontText {u : Url} (h : u.IsCanonical toAscii?) :
    ∀ c ∈ u.frontText, IsPrinted c := by
  intro c hc
  obtain hc | hc := List.mem_append.mp hc
  · exact isPrinted_of_mem_scheme h.web c hc
  · simp only [List.mem_cons] at hc
    obtain rfl | rfl | rfl | hc := hc
    · decide
    · decide
    · decide
    · exact (isInFront_of_mem_authorityText h c hc).1

/-- The front of an address with any printed text behind it that it ends at. -/
theorem readWeb?_frontText {u : Url} (h : u.IsCanonical toAscii?) {tail : List Char}
    (hprinted : ∀ c ∈ tail, IsPrinted c) (htail : ∀ c ∈ tail.head?, endsAuthority c = true) :
    readWeb? toAscii? (String.ofList (u.frontText ++ tail)) = some (.ok (u.withTail tail)) := by
  have hclean : cleanInput (String.ofList (u.frontText ++ tail)) = u.frontText ++ tail := by
    refine cleanInput_of_isPrinted fun c hc => ?_
    obtain hc | hc := List.mem_append.mp hc
    · exact isPrinted_of_mem_frontText h c hc
    · exact hprinted c hc
  have hsplit : splitScheme? (u.frontText ++ tail) =
      some (u.scheme, '/' :: '/' :: (u.authorityText ++ tail)) := by
    unfold frontText
    rw [List.append_assoc]
    exact splitScheme?_append h.web _
  unfold readWeb?
  rw [hclean, hsplit]
  dsimp only
  rw [if_pos h.web, readAfterScheme_frontText h htail]

theorem isPrinted_of_mem_marked {mark : Char} (hmark : IsPrinted mark) {part : Part}
    {text : Option String} (h : ∀ t ∈ text, IsEncoded part t) :
    ∀ c ∈ marked mark text, IsPrinted c := by
  cases text with
  | none => simp [marked]
  | some t => exact List.forall_mem_cons.mpr ⟨hmark, fun c hc => isPrinted_of_encodes (h t rfl c hc)⟩

theorem isPrinted_of_mem_pathText {path : List String} (h : ∀ s ∈ path, IsSegment s) :
    ∀ c ∈ pathText path, IsPrinted c := by
  refine List.forall_mem_cons.mpr ⟨by decide, fun c hc => ?_⟩
  obtain rfl | ⟨segment, hsegment, hc⟩ := of_mem_intercalate hc
  · decide
  · obtain ⟨s, hs, rfl⟩ := List.mem_map.mp hsegment
    exact isPrinted_of_encodes ((h s hs).encoded c hc)

theorem isPrinted_of_mem_tailText {u : Url} (h : u.IsCanonical toAscii?) :
    ∀ c ∈ tailText u.path u.query u.fragment, IsPrinted c := by
  intro c hc
  obtain hc | hc := List.mem_append.mp hc
  · obtain hc | hc := List.mem_append.mp hc
    · exact isPrinted_of_mem_pathText h.path c hc
    · exact isPrinted_of_mem_marked (by decide) h.query c hc
  · exact isPrinted_of_mem_marked (by decide) h.fragment c hc

/-- What is written of canonical parts is read as the address that they are. -/
theorem readWeb?_write {u : Url} (h : u.IsCanonical toAscii?) :
    readWeb? toAscii? u.write = some (.ok u) := by
  have hread := readWeb?_frontText h (isPrinted_of_mem_tailText h)
    (by simp [tailText, pathText, endsAuthority])
  rw [← toList_write, String.ofList_toList] at hread
  rw [hread]
  unfold withTail
  rw [readTail_tailText h.rooted h.path h.query h.fragment]

end Url

end Telemetry
