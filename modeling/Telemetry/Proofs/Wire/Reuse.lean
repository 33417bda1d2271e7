-- SUMMARY: One signer for many calls: no call leaves a trace in it, and what a check then says about every text.
import Telemetry.Proofs.Wire.Signing

/-!
# Signers in use

One keyed instance serves all calls of a signer. Every call leaves the signer as it was, also one that
fails, so no signature depends on what was signed or checked before. A check first sees whether the text
stands for bytes, then whether there is a key, and only then compares.
-/

namespace Telemetry.Signer

-- ---------------------------------------------------------------------------
-- Calls
-- ---------------------------------------------------------------------------

/-- A call of a signer. -/
inductive Call where
  | sign (m : Metric)
  | signHex (m : Metric)
  | check (m : Metric) (text : String)

/-- The signer after a call, whatever came of it. -/
def Call.next (s : Signer) : Call → Signer
  | sign m => (s.sign m).2
  | signHex m => (s.signHex m).2
  | check m text => (s.check m text).2

/-- The signer after calls, one after the other. -/
def afterCalls (s : Signer) (calls : List Call) : Signer :=
  calls.foldl Call.next s

theorem sign_ofKey_snd (key : String) (m : Metric) : ((ofKey key).sign m).2 = ofKey key := by
  by_cases hkey : key = ""
  · subst hkey
    rfl
  · rw [sign_ofKey hkey]

/-- A call leaves the signer of a key as it was. -/
theorem next_ofKey (key : String) (c : Call) : c.next (ofKey key) = ofKey key := by
  cases c with
  | sign m => exact sign_ofKey_snd key m
  | signHex m => exact sign_ofKey_snd key m
  | check m text =>
    have hcheck : ((ofKey key).check m text).2 = ofKey key := by
      unfold check
      cases Hex.decode text with
      | error fault => rfl
      | ok supplied => exact sign_ofKey_snd key m
    exact hcheck

/-- Calls leave the signer of a key as it was. -/
theorem afterCalls_ofKey (key : String) (calls : List Call) :
    (ofKey key).afterCalls calls = ofKey key := by
  unfold afterCalls
  induction calls with
  | nil => rfl
  | cons c calls ih => rw [List.foldl_cons, next_ofKey, ih]

-- ---------------------------------------------------------------------------
-- Verdicts
-- ---------------------------------------------------------------------------

/-- A malformed text is refused by every signer, with a key or without. -/
theorem check_of_malformed (s : Signer) (m : Metric) {text : String} (h : Hex.Malformed text) :
    ∃ fault, (s.check m text).1 = fail (.signatureDecode fault) := by
  obtain ⟨fault, hfault⟩ := Hex.exists_decode_eq_error_iff.mpr h
  refine ⟨fault, ?_⟩
  unfold check
  rw [hfault]

/-- Without a key a text of bytes is not checked. -/
theorem check_disabled (m : Metric) {text : String} (h : ¬ Hex.Malformed text) :
    (disabled.check m text).1 = fail .missingKey := by
  obtain ⟨supplied, hsupplied⟩ := Hex.exists_decode_eq_ok_iff.mpr h
  unfold check
  rw [hsupplied]
  rfl

/-- With a key a text of bytes is right if it is the text of the signature, in either case. -/
theorem check_ofKey_of_not_malformed {key : String} (hkey : key ≠ "") (m : Metric) {text : String}
    (h : ¬ Hex.Malformed text) :
    ((ofKey key).check m text).1 = .ok (decide (text.toLower = signatureText key m)) := by
  obtain ⟨supplied, hsupplied⟩ := Hex.exists_decode_eq_ok_iff.mpr h
  have hsame : signature key m = supplied ↔ text.toLower = signatureText key m := by
    rw [signatureText, ← Hex.decode_eq_ok_iff, hsupplied, Except.ok.injEq, eq_comm]
  rw [check_ofKey hkey m hsupplied]
  simp only [hsame]

/-- The three things that a check finds, in the order in which it looks for them. -/
theorem check_ofKey_cases (key : String) (m : Metric) (text : String) :
    (Hex.Malformed text ∧ ∃ fault, ((ofKey key).check m text).1 = fail (.signatureDecode fault)) ∨
    (¬ Hex.Malformed text ∧ key = "" ∧ ((ofKey key).check m text).1 = fail .missingKey) ∨
    (¬ Hex.Malformed text ∧ key ≠ "" ∧
      ((ofKey key).check m text).1 = .ok (decide (text.toLower = signatureText key m))) := by
  by_cases hmalformed : Hex.Malformed text
  · exact .inl ⟨hmalformed, check_of_malformed _ m hmalformed⟩
  by_cases hkey : key = ""
  · subst hkey
    exact .inr (.inl ⟨hmalformed, rfl, check_disabled m hmalformed⟩)
  · exact .inr (.inr ⟨hmalformed, hkey, check_ofKey_of_not_malformed hkey m hmalformed⟩)

/-- Whatever has been signed and checked before, and whatever came of it: a text is refused as a signature
    exactly if it has an odd number of bytes or one that is no digit; any other text is left unchecked
    exactly if there is no key; and with a key it is right if in lower case it is what the signer signs, and
    wrong otherwise. What the signer signs is the text of the digest, and it is right itself. -/
theorem check_after_calls (key : String) (calls : List Call) (m : Metric) (text : String) :
    let s := (ofKey key).afterCalls calls
    let verdict := (s.check m text).1
    ((∃ fault, verdict = fail (.signatureDecode fault)) ↔ Hex.Malformed text) ∧
    (verdict = fail .missingKey ↔ ¬ Hex.Malformed text ∧ key = "") ∧
    (key ≠ "" →
      (s.signHex m).1 = .ok (signatureText key m) ∧
      (¬ Hex.Malformed text → verdict = .ok (decide (text.toLower = signatureText key m))) ∧
      (s.check m (signatureText key m)).1 = .ok true) := by
  intro s verdict
  have hs : s = ofKey key := afterCalls_ofKey key calls
  have hsigned : key ≠ "" → (s.signHex m).1 = .ok (signatureText key m) ∧
      (s.check m (signatureText key m)).1 = .ok true := by
    intro hkey
    rw [hs, signHex_ofKey hkey]
    exact ⟨rfl, (check_ofKey_eq_true_iff hkey m _).mpr (Hex.toLower_encode _)⟩
  have hcases := check_ofKey_cases key m text
  rw [← hs] at hcases
  rcases hcases with ⟨hmalformed, fault, hverdict⟩ | ⟨hwell, hkey, hverdict⟩ | ⟨hwell, hkey, hverdict⟩
  · refine ⟨iff_of_true ⟨fault, hverdict⟩ hmalformed, iff_of_false ?_ fun h => h.1 hmalformed,
      fun hkey => ⟨(hsigned hkey).1, fun hwell => absurd hmalformed hwell, (hsigned hkey).2⟩⟩
    exact fun h => nomatch hverdict.symm.trans h
  · exact ⟨iff_of_false (fun ⟨_, h⟩ => nomatch hverdict.symm.trans h) hwell,
      iff_of_true hverdict ⟨hwell, hkey⟩, fun hne => absurd hkey hne⟩
  · exact ⟨iff_of_false (fun ⟨_, h⟩ => nomatch hverdict.symm.trans h) hwell,
      iff_of_false (fun h => nomatch hverdict.symm.trans h) fun h => hkey h.2,
      fun hkey => ⟨(hsigned hkey).1, fun _ => hverdict, (hsigned hkey).2⟩⟩

/-- After calls that failed and calls that did not, a short text is wrong and the signature is right. -/
theorem check_after_calls_mixed :
    let m : Metric := ⟨"a", .counter 5⟩
    let s := (ofKey "k").afterCalls [.check m "zz", .sign m, .check m "0a", .signHex ⟨"b", .gauge .nan⟩]
    "k" ≠ "" ∧ ¬ Hex.Malformed "0A" ∧ (s.check m "0A").1 = .ok false ∧
      (s.check m (signatureText "k" m)).1 = .ok true := by
  intro m s
  have hkey : "k" ≠ "" := by decide
  have hten : "0A".toLower = Hex.encode [10] := by decide +kernel
  have hwell : ¬ Hex.Malformed "0A" :=
    Hex.exists_decode_eq_ok_iff.mp ⟨[10], Hex.decode_eq_ok_iff.mpr hten⟩
  have hwrong : "0A".toLower ≠ signatureText "k" m := by
    intro h
    have hbytes : [10] = signature "k" m := Hex.encode_injective (hten.symm.trans h)
    have hlength := Hmac.length_digest "k".toUTF8.toList m.canonicalText.toUTF8.toList
    exact absurd ((congrArg List.length hbytes).trans hlength) (by decide)
  obtain ⟨-, hverdict, hright⟩ := (check_after_calls "k" _ m "0A").2.2 hkey
  exact ⟨hkey, hwell, decide_eq_false hwrong ▸ hverdict hwell, hright⟩

end Telemetry.Signer
