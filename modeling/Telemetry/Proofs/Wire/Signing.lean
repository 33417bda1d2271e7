-- SUMMARY: Signatures: what a signer with a key signs and accepts, and that it is the same signer afterwards.
import Telemetry.Proofs.Digest.Hmac
import Telemetry.Proofs.Outcome
import Telemetry.Proofs.Text.Hex
import Telemetry.Wire.Signer

/-!
# Signatures

The signature of a metric is the digest of its canonical text under the key. A signer with a key gives
this signature whenever it is asked, and a text is right if it is the hexadecimal text of the signature in
either case. The comparison looks at all bytes and is equality all the same.
-/

namespace Telemetry

/-! ## Comparing all bytes -/

theorem foldl_or_xor_eq_zero_iff (pairs : List (UInt8 × UInt8)) (acc : UInt8) :
    pairs.foldl (fun acc (x, y) => acc ||| (x ^^^ y)) acc = 0 ↔
      acc = 0 ∧ ∀ p ∈ pairs, p.1 = p.2 := by
  induction pairs generalizing acc with
  | nil => simp
  | cons p pairs ih =>
    obtain ⟨x, y⟩ := p
    rw [List.foldl_cons, ih, UInt8.or_eq_zero_iff, UInt8.xor_eq_zero_iff, List.forall_mem_cons,
      and_assoc]

theorem eq_iff_forall_mem_zip {α : Type} {a b : List α} (hlength : a.length = b.length) :
    a = b ↔ ∀ p ∈ a.zip b, p.1 = p.2 := by
  induction a generalizing b with
  | nil =>
    cases b with
    | nil => simp
    | cons y b => cases hlength
  | cons x a ih =>
    cases b with
    | nil => cases hlength
    | cons y b =>
      rw [List.cons.injEq, List.zip_cons_cons, List.forall_mem_cons, ih (Nat.succ.inj hlength)]

/-- The comparison of all bytes is equality. -/
theorem constantTimeEq_eq_decide (a b : List UInt8) : constantTimeEq a b = decide (a = b) := by
  rw [Bool.eq_iff_iff, decide_eq_true_iff]
  unfold constantTimeEq
  rw [Bool.and_eq_true, beq_iff_eq, beq_iff_eq, foldl_or_xor_eq_zero_iff]
  constructor
  · rintro ⟨hlength, -, hzip⟩
    exact (eq_iff_forall_mem_zip hlength).mpr hzip
  · rintro rfl
    exact ⟨rfl, rfl, (eq_iff_forall_mem_zip rfl).mp rfl⟩

namespace Signer

/-! ## Signing -/

/-- The signature of a metric under a key. -/
def signature (key : String) (m : Metric) : List UInt8 :=
  Hmac.digest key.toUTF8.toList m.canonicalText.toUTF8.toList

/-- The hexadecimal text of the signature, in lower case. -/
def signatureText (key : String) (m : Metric) : String :=
  Hex.encode (signature key m)

theorem signatureText_ne_empty (key : String) (m : Metric) : signatureText key m ≠ "" := by
  intro h
  have hlength := Hmac.length_digest key.toUTF8.toList m.canonicalText.toUTF8.toList
  have hnil : Hmac.digest key.toUTF8.toList m.canonicalText.toUTF8.toList = [] :=
    Hex.encode_eq_empty_iff.mp h
  rw [hnil] at hlength
  cases hlength

/-- Two metrics whose different canonical texts have the same digest under a key. -/
def Collide (key : String) (m m' : Metric) : Prop :=
  Hmac.Collide key.toUTF8.toList m.canonicalText.toUTF8.toList m'.canonicalText.toUTF8.toList

/-- Signatures that do not collide tell canonical texts apart, and nothing else. -/
theorem signature_eq_iff {key : String} {m m' : Metric} (h : ¬ Collide key m m') :
    signature key m = signature key m' ↔ m.canonicalText = m'.canonicalText :=
  (Hmac.not_collide_iff.mp h).trans Utf8.toList_toUTF8_inj

theorem ofKey_of_ne {key : String} (hkey : key ≠ "") :
    ofKey key = ⟨some (.start key.toUTF8.toList)⟩ := by
  unfold ofKey
  exact if_neg fun h => hkey (String.isEmpty_iff.mp h)

@[simp] theorem ofKey_empty : ofKey "" = disabled := rfl

theorem isEnabled_ofKey (key : String) : (ofKey key).isEnabled = decide (key ≠ "") := by
  by_cases hkey : key = ""
  · rw [hkey]
    rfl
  · rw [ofKey_of_ne hkey]
    exact (decide_eq_true hkey).symm

/-- Signing gives the signature and the same signer. -/
theorem sign_ofKey {key : String} (hkey : key ≠ "") (m : Metric) :
    (ofKey key).sign m = (.ok (signature key m), ofKey key) := by
  rw [ofKey_of_ne hkey]
  unfold sign
  dsimp only
  rw [Mac.finish_absorb_start]
  rfl

theorem signHex_ofKey {key : String} (hkey : key ≠ "") (m : Metric) :
    (ofKey key).signHex m = (.ok (signatureText key m), ofKey key) := by
  unfold signHex
  rw [sign_ofKey hkey]
  rfl

/-! ## Checking -/

/-- A text that stands for bytes is checked by comparing them with the signature. -/
theorem check_ofKey {key : String} (hkey : key ≠ "") (m : Metric) {text : String}
    {supplied : List UInt8} (htext : Hex.decode text = .ok supplied) :
    (ofKey key).check m text = (.ok (decide (signature key m = supplied)), ofKey key) := by
  unfold check
  rw [htext]
  dsimp only
  rw [sign_ofKey hkey, ← constantTimeEq_eq_decide]
  rfl

/-- A text is found right if it is the hexadecimal text of the signature in either case. -/
theorem check_ofKey_eq_true_iff {key : String} (hkey : key ≠ "") (m : Metric) (text : String) :
    ((ofKey key).check m text).1 = .ok true ↔ text.toLower = signatureText key m := by
  unfold signatureText
  rw [← Hex.decode_eq_ok_iff]
  cases htext : Hex.decode text with
  | error fault =>
    unfold check
    rw [htext]
    exact ⟨(nomatch ·), (nomatch ·)⟩
  | ok supplied =>
    rw [check_ofKey hkey m htext, Except.ok.injEq, Except.ok.injEq, decide_eq_true_iff, eq_comm]

end Signer

end Telemetry
