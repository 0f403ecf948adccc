import Mathlib.Algebra.Order.Ring.Rat
import Mathlib.Data.Rat.Cast.Order
import Mathlib.Data.Set.Function
import PaymentRail.Strings.BigInt
import PaymentRail.Strings.Json
import PaymentRail.Strings.Separated

/-!
# WebhookSignature — signing a request body and checking the signature

This module embeds `webhooks/webhook-signature.ts`.  The keyed hash of `createHmac('sha256', secret)`
is a parameter that prints a digest in 64 hex digits (`Hmac`); what is assumed of it beyond that is
that it has no collision among the pairs of key and text that are in use.  Texts are well-formed
(no lone surrogates, which all read as one character in UTF-8), and a tolerance is a finite number.

- `parseHeader` : a header as its last timestamp and all of its `v1` values
- `verifies_iff` : which requests a header of the service verifies for
- `carried_of_valid` : what stands in a header that verifies
-/

namespace PaymentRail
namespace Webhooks
namespace Signature

open Strings
open Separated (stops_cons)

/-! ## Digests -/

def lowerHexDigits : List Char :=
  ['0', '1', '2', '3', '4', '5', '6', '7', '8', '9', 'a', 'b', 'c', 'd', 'e', 'f']

/-- `/^[0-9a-f]{64}$/` -/
def signaturePattern (s : Text) : Bool := s.length = 64 && s.all fun c => lowerHexDigits.contains c

/-- `/^\d{1,12}$/` -/
def timestampPattern (s : Text) : Bool := 1 ≤ s.length && s.length ≤ 12 && s.all isDecDigit

/-- `createHmac('sha256', secret).update(text, 'utf8').digest('hex')` -/
structure Hmac where
  digest : Text → Text → Text
  pattern : ∀ secret text, signaturePattern (digest secret text) = true

/-- `Buffer.from(s, 'hex')`: the bytes up to the first pair that is none. -/
def hexBuffer : Text → List Nat
  | a :: b :: rest =>
      if isHexDigit a = true ∧ isHexDigit b = true then
        (16 * digitVal a + digitVal b) :: hexBuffer rest
      else []
  | _ => []

/-! ## Signing -/

/-- The text that is signed. -/
def signedText (timestamp : Int) (body : Text) : Text := Json.intText timestamp ++ '.' :: body

def computeSignature (hmac : Hmac) (secret : Text) (timestamp : Int) (body : Text) : Text :=
  hmac.digest secret (signedText timestamp body)

/-- `SIGNATURE_VERSION` -/
def signatureVersion : Text := ['v', '1']

/-- `now` is in milliseconds. -/
def buildSignatureHeader (hmac : Hmac) (secret body : Text) (now : Int) : Text :=
  let timestamp := now / 1000
  't' :: '=' :: (Json.intText timestamp ++
    ',' :: (signatureVersion ++ '=' :: computeSignature hmac secret timestamp body))

/-! ## Checking -/

inductive SignatureFailure where
  | malformedHeader
  | timestampOutOfTolerance
  | signatureMismatch
  deriving DecidableEq, Repr

structure SignatureCheck where
  valid : Bool
  reason : Option SignatureFailure
  timestamp : Option Nat
  deriving DecidableEq, Repr

structure ParsedHeader where
  timestamp : Option Nat
  signatures : List Text
  deriving DecidableEq, Repr

/-- One part of a header; `none` refuses the header. -/
def parsePart (parsed : ParsedHeader) (part : Text) : Option ParsedHeader :=
  match part.dropWhile (· ≠ '=') with
  | [] => none
  | _ :: rest =>
      let key := trim (part.takeWhile (· ≠ '='))
      let given := trim rest
      if key = ['t'] then
        if timestampPattern given = true then some { parsed with timestamp := some (value 10 given) }
        else none
      else if key = signatureVersion then
        if signaturePattern given = true then
          some { parsed with signatures := parsed.signatures ++ [given] }
        else none
      -- unknown keys are ignored so a future v2 can be added next to v1
      else some parsed

def parseParts (parts : List Text) : Option ParsedHeader := parts.foldlM parsePart ⟨none, []⟩

/-- The timestamp and the signatures, at least one. -/
def parseHeader (header : Option Text) : Option (Nat × List Text) :=
  match header with
  | none => none
  | some [] => none
  | some header =>
      match parseParts (header.splitOn ',') with
      | none => none
      | some parsed =>
          match parsed.timestamp with
          | none => none
          | some timestamp => if parsed.signatures = [] then none else some (timestamp, parsed.signatures)

/-- `DEFAULT_TOLERANCE_SECONDS` -/
def defaultToleranceSeconds : ℚ := 300

/-- Whether two times in seconds are no further apart than the tolerance. -/
def Within (tolerance : ℚ) (a b : Int) : Prop := ((|a - b| : Int) : ℚ) ≤ tolerance

instance (tolerance : ℚ) (a b : Int) : Decidable (Within tolerance a b) :=
  inferInstanceAs (Decidable (_ ≤ _))

def verifySignatureHeader (hmac : Hmac) (secret : Text) (header : Option Text) (body : Text)
    (toleranceSeconds : Option ℚ) (now : Int) : SignatureCheck :=
  match parseHeader header with
  | none => { valid := false, reason := some .malformedHeader, timestamp := none }
  | some (timestamp, signatures) =>
      let tolerance := toleranceSeconds.getD defaultToleranceSeconds
      let nowSeconds := now / 1000
      -- symmetric: a timestamp from the future is as suspicious as a stale one
      if ¬ Within tolerance nowSeconds timestamp then
        { valid := false, reason := some .timestampOutOfTolerance, timestamp := some timestamp }
      else
        let expected := hexBuffer (computeSignature hmac secret timestamp body)
        -- several values are allowed so a receiver can accept two secrets while rotating
        if signatures.any fun candidate => hexBuffer candidate = expected then
          { valid := true, reason := none, timestamp := some timestamp }
        else
          { valid := false, reason := some .signatureMismatch, timestamp := some timestamp }

/-! ## The signed text -/

/-- The timestamp ends at the first dot, so the signed text tells both of its parts. -/
theorem signedText_injective {t t' : Int} {body body' : Text}
    (h : signedText t body = signedText t' body') : t = t' ∧ body = body' := by
  have hdot : ∀ n, ∀ c ∈ Json.intText n, (c == '.') = false := by
    intro n c hc
    refine beq_false_of_ne ?_
    rintro rfl
    exact Json.not_mem_intText (by decide) (by decide) n hc
  rcases @Separated.word_inj (fun c => c == '.') _ _ _ _ (hdot t) (hdot t') (stops_cons rfl)
    (stops_cons rfl) h with ⟨htext, hbody⟩
  exact ⟨Json.intText_injective htext, (List.cons.inj hbody).2⟩

/-! ## Digests as bytes -/

theorem digitChar_digitVal {c : Char} (h : c ∈ lowerHexDigits) : (digitVal c).digitChar = c := by
  have hall : lowerHexDigits.Forall fun c => (digitVal c).digitChar = c := by decide
  exact List.forall_iff_forall_mem.1 hall c h

theorem hexDigit_of_lower {c : Char} (h : c ∈ lowerHexDigits) :
    isHexDigit c = true ∧ digitVal c < 16 := by
  have hall : lowerHexDigits.Forall fun c => isHexDigit c = true ∧ digitVal c < 16 := by decide
  exact List.forall_iff_forall_mem.1 hall c h

/-- Texts of lower-case digits with the same bytes are the same. -/
theorem hexBuffer_injective : ∀ {a b : Text}, (∀ c ∈ a, c ∈ lowerHexDigits) →
    (∀ c ∈ b, c ∈ lowerHexDigits) → a.length = b.length → a.length % 2 = 0 →
    hexBuffer a = hexBuffer b → a = b
  | [], b, _, _, hlength, _, _ => (List.length_eq_zero_iff.1 hlength.symm).symm
  | [_], _, _, _, _, heven, _ => absurd heven (by simp)
  | _ :: _ :: _, [], _, _, hlength, _, _ => absurd hlength (by simp)
  | _ :: _ :: _, [_], _, _, hlength, _, _ => absurd hlength (by simp)
  | a₁ :: a₂ :: a, b₁ :: b₂ :: b, ha, hb, hlength, heven, h => by
      have hmem : ∀ {c₁ c₂ : Char} {s : Text}, (∀ c ∈ c₁ :: c₂ :: s, c ∈ lowerHexDigits) →
          c₁ ∈ lowerHexDigits ∧ c₂ ∈ lowerHexDigits ∧ ∀ c ∈ s, c ∈ lowerHexDigits := by
        intro c₁ c₂ s hs
        exact ⟨hs _ (by simp), hs _ (by simp), fun c hc => hs c (by simp [hc])⟩
      rcases hmem ha with ⟨ha₁, ha₂, harest⟩
      rcases hmem hb with ⟨hb₁, hb₂, hbrest⟩
      rcases hexDigit_of_lower ha₁ with ⟨hexa₁, _⟩
      rcases hexDigit_of_lower ha₂ with ⟨hexa₂, hlta⟩
      rcases hexDigit_of_lower hb₁ with ⟨hexb₁, _⟩
      rcases hexDigit_of_lower hb₂ with ⟨hexb₂, hltb⟩
      rw [hexBuffer, if_pos ⟨hexa₁, hexa₂⟩, hexBuffer, if_pos ⟨hexb₁, hexb₂⟩] at h
      rcases List.cons.inj h with ⟨hbyte, hrest⟩
      -- a byte tells its two digits
      have hfirst : digitVal a₁ = digitVal b₁ := by omega
      have hsecond : digitVal a₂ = digitVal b₂ := by omega
      simp only [List.length_cons] at hlength heven
      have htail := hexBuffer_injective harest hbrest (by omega) (by omega) hrest
      rw [← digitChar_digitVal ha₁, ← digitChar_digitVal ha₂, hfirst, hsecond, digitChar_digitVal hb₁,
        digitChar_digitVal hb₂, htail]

theorem signaturePattern_iff {s : Text} :
    signaturePattern s = true ↔ s.length = 64 ∧ ∀ c ∈ s, c ∈ lowerHexDigits := by
  simp [signaturePattern]

theorem eq_of_hexBuffer {a b : Text} (ha : signaturePattern a = true) (hb : signaturePattern b = true)
    (h : hexBuffer a = hexBuffer b) : a = b := by
  rcases signaturePattern_iff.1 ha with ⟨halength, hadigits⟩
  rcases signaturePattern_iff.1 hb with ⟨hblength, hbdigits⟩
  exact hexBuffer_injective hadigits hbdigits (halength.trans hblength.symm) (by rw [halength]) h

/-! ## What a header carries -/

/-- A part `key=given`, up to blanks. -/
def PartIs (part key given : Text) : Prop :=
  ∃ before after, part = before ++ '=' :: after ∧ '=' ∉ before ∧ trim before = key ∧
    trim after = given

/-- One of the parts of a header has this key and this value. -/
def Carries (header key given : Text) : Prop := ∃ part ∈ header.splitOn ',', PartIs part key given

/-- What a part adds to what is parsed. -/
theorem parsePart_eq_some {parsed next : ParsedHeader} {part : Text}
    (h : parsePart parsed part = some next) :
    (∃ given, PartIs part ['t'] given ∧ timestampPattern given = true ∧
        next = { parsed with timestamp := some (value 10 given) }) ∨
      (∃ given, PartIs part signatureVersion given ∧ signaturePattern given = true ∧
        next = { parsed with signatures := parsed.signatures ++ [given] }) ∨
      next = parsed := by
  unfold parsePart at h
  split at h
  · cases h
  · rename_i c rest hdrop
    -- the key is what stands before the first `=`
    have hc : c = '=' := by
      have hstop := List.head?_dropWhile_not (fun d : Char => decide (d ≠ '=')) part
      rw [hdrop] at hstop
      simpa using hstop
    subst hc
    have hpart : ∀ {key : Text}, trim (part.takeWhile (· ≠ '=')) = key →
        PartIs part key (trim rest) := by
      intro key hkey
      refine ⟨part.takeWhile (· ≠ '='), rest, ?_, ?_, hkey, rfl⟩
      · rw [← hdrop]
        exact (List.takeWhile_append_dropWhile).symm
      · intro hmem
        exact absurd (List.mem_takeWhile_imp hmem) (by simp)
    dsimp only at h
    split_ifs at h with hkey hpattern hversion hsignature
    · exact Or.inl ⟨_, hpart hkey, hpattern, (Option.some.inj h).symm⟩
    · exact Or.inr (Or.inl ⟨_, hpart hversion, hsignature, (Option.some.inj h).symm⟩)
    · exact Or.inr (Or.inr (Option.some.inj h).symm)

/-- Everything that is parsed stands in some part. -/
structure Parsed (parts : List Text) (parsed : ParsedHeader) : Prop where
  timestamp : ∀ t ∈ parsed.timestamp, ∃ part ∈ parts, ∃ given, PartIs part ['t'] given ∧
    timestampPattern given = true ∧ t = value 10 given
  signatures : ∀ given ∈ parsed.signatures, signaturePattern given = true ∧
    ∃ part ∈ parts, PartIs part signatureVersion given

/-- One more part. -/
theorem Parsed.step {parts : List Text} {part : Text} {parsed next : ParsedHeader}
    (h : Parsed parts parsed) (hmem : part ∈ parts) (hstep : parsePart parsed part = some next) :
    Parsed parts next := by
  rcases parsePart_eq_some hstep with ⟨given, hpart, hpattern, rfl⟩ | ⟨given, hpart, hpattern, rfl⟩ | rfl
  · refine ⟨?_, h.signatures⟩
    intro t ht
    exact ⟨part, hmem, given, hpart, hpattern, (Option.some.inj ht).symm⟩
  · refine ⟨h.timestamp, ?_⟩
    intro s hs
    rcases List.mem_append.1 hs with hold | hnew
    · exact h.signatures s hold
    · rw [List.mem_singleton.1 hnew]
      exact ⟨hpattern, part, hmem, hpart⟩
  · exact h

theorem parsed_foldlM {parts all : List Text} (hsubset : parts ⊆ all) {parsed final : ParsedHeader}
    (h : Parsed all parsed) (hrun : parts.foldlM parsePart parsed = some final) :
    Parsed all final := by
  induction parts generalizing parsed with
  | nil =>
      cases hrun
      exact h
  | cons part parts ih =>
      rcases Option.bind_eq_some_iff.1 hrun with ⟨next, hstep, hrest⟩
      rcases List.cons_subset.1 hsubset with ⟨hmem, hparts⟩
      exact ih hparts (h.step hmem hstep) hrest

/-- Whatever is read from a header stands in it. -/
theorem parseHeader_eq_some {header : Option Text} {t : Nat} {signatures : List Text}
    (h : parseHeader header = some (t, signatures)) :
    ∃ text, header = some text ∧
      (∃ given, Carries text ['t'] given ∧ timestampPattern given = true ∧ t = value 10 given) ∧
      ∀ given ∈ signatures, signaturePattern given = true ∧ Carries text signatureVersion given := by
  unfold parseHeader at h
  split at h
  · cases h
  · cases h
  · rename_i text _
    split at h
    · cases h
    · rename_i parsed hparsed
      split at h
      · cases h
      · rename_i timestamp htimestamp
        split_ifs at h
        rcases Prod.mk.inj (Option.some.inj h) with ⟨rfl, rfl⟩
        -- nothing is parsed before the first part
        have hempty : Parsed (text.splitOn ',') ⟨none, []⟩ :=
          ⟨fun _ ht => absurd ht.symm (Option.some_ne_none _), fun _ hs => absurd hs List.not_mem_nil⟩
        have hall := parsed_foldlM (List.Subset.refl _) hempty hparsed
        rcases hall.timestamp timestamp htimestamp with ⟨part, hmem, given, hpart, hpattern, hvalue⟩
        refine ⟨text, rfl, ⟨given, ⟨part, hmem, hpart⟩, hpattern, hvalue⟩, ?_⟩
        intro given hgiven
        exact hall.signatures given hgiven

/-- When a request verifies. -/
theorem valid_iff {hmac : Hmac} {secret body : Text} {header : Option Text} {tolerance : Option ℚ}
    {now : Int} :
    (verifySignatureHeader hmac secret header body tolerance now).valid = true ↔
      ∃ t signatures, parseHeader header = some (t, signatures) ∧
        (verifySignatureHeader hmac secret header body tolerance now).timestamp = some t ∧
        Within (tolerance.getD defaultToleranceSeconds) (now / 1000) t ∧
        ∃ candidate ∈ signatures, hexBuffer candidate =
          hexBuffer (computeSignature hmac secret t body) := by
  unfold verifySignatureHeader
  cases hparsed : parseHeader header with
  | none => simp
  | some parsed =>
      rcases parsed with ⟨t, signatures⟩
      by_cases hwithin : Within (tolerance.getD defaultToleranceSeconds) (now / 1000) t
      · by_cases hany : (signatures.any fun candidate =>
            decide (hexBuffer candidate = hexBuffer (computeSignature hmac secret t body))) = true
        · have hfound : ∃ candidate ∈ signatures, hexBuffer candidate =
              hexBuffer (computeSignature hmac secret t body) := by
            simpa using hany
          simp only [hwithin, not_true_eq_false, if_false, hany, if_true, true_iff]
          exact ⟨t, signatures, rfl, rfl, hwithin, hfound⟩
        · -- no candidate has the bytes of the signature
          simp only [hwithin, not_true_eq_false, if_false, hany, Bool.false_eq_true, false_iff]
          rintro ⟨t', signatures', hsome, _, _, hfound⟩
          rcases Prod.mk.inj (Option.some.inj hsome) with ⟨rfl, rfl⟩
          exact hany (by simpa using hfound)
      · simp only [hwithin, not_false_eq_true, if_true, Bool.false_eq_true, false_iff]
        rintro ⟨t', signatures', hsome, _, hin, _⟩
        rcases Prod.mk.inj (Option.some.inj hsome) with ⟨rfl, rfl⟩
        exact hwithin hin

/-! ## Headers of the service -/

theorem not_whiteSpace_decDigit {c : Char} (h : c ∈ decDigits) : isWhiteSpace c = false :=
  forall_mem_decDigits (P := fun c => isWhiteSpace c = false) (by decide) h

theorem not_whiteSpace_lowerHex {c : Char} (h : c ∈ lowerHexDigits) : isWhiteSpace c = false := by
  have hall : lowerHexDigits.Forall fun c => isWhiteSpace c = false := by decide
  exact List.forall_iff_forall_mem.1 hall c h

section Build

variable {hmac : Hmac} {secret body : Text} {now : Int} {t : Nat}

theorem digits_computeSignature {c : Char} (hc : c ∈ computeSignature hmac secret t body) :
    c ∈ lowerHexDigits :=
  (signaturePattern_iff.1 (hmac.pattern secret (signedText t body))).2 c hc

/-- Neither part of a header has a comma in it. -/
theorem splitOn_build (ht : now / 1000 = t) :
    (buildSignatureHeader hmac secret body now).splitOn ',' =
      ['t' :: '=' :: Nat.toDigits 10 t,
        'v' :: '1' :: '=' :: computeSignature hmac secret t body] := by
  have hheader : buildSignatureHeader hmac secret body now = List.intercalate [',']
      ['t' :: '=' :: Nat.toDigits 10 t,
        'v' :: '1' :: '=' :: computeSignature hmac secret t body] := by
    rw [List.intercalate_cons_cons, List.intercalate_singleton, buildSignatureHeader, ht,
      Json.intText_natCast, List.append_assoc]
    rfl
  rw [hheader]
  refine List.splitOn_intercalate ',' ?_ (List.cons_ne_nil _ _)
  -- digits in either part, and no comma
  intro part hpart hcomma
  rcases List.mem_cons.1 hpart with rfl | hpart
  · have hmem : ',' ∈ Nat.toDigits 10 t := by simpa using hcomma
    exact not_mem_toDigits (by decide) t hmem
  · rw [List.mem_singleton.1 hpart] at hcomma
    have hmem : ',' ∈ computeSignature hmac secret t body := by simpa using hcomma
    exact absurd (digits_computeSignature hmem) (by decide)

theorem parsePart_timestamp (parsed : ParsedHeader) (hless : t < 10 ^ 12) :
    parsePart parsed ('t' :: '=' :: Nat.toDigits 10 t) = some { parsed with timestamp := some t } := by
  have hpos : 1 ≤ (Nat.toDigits 10 t).length := List.length_pos_iff.2 Nat.toDigits_ne_nil
  have hwidth : (Nat.toDigits 10 t).length ≤ 12 :=
    (Nat.length_toDigits_le_iff (by decide) (by decide)).2 hless
  have hall : (Nat.toDigits 10 t).all isDecDigit = true :=
    List.all_eq_true.2 fun c hc => isDecDigit_iff.2 (mem_decDigits_of_mem_toDigits hc)
  have hpattern : timestampPattern (Nat.toDigits 10 t) = true := by
    simp [timestampPattern, hpos, hwidth, hall]
  have htrim : trim (Nat.toDigits 10 t) = Nat.toDigits 10 t :=
    trim_eq_self fun c hc => not_whiteSpace_decDigit (mem_decDigits_of_mem_toDigits hc)
  have hkey : trim ['t'] = ['t'] := by decide
  simp [parsePart, hkey, htrim, hpattern, value_toDigits]

theorem parsePart_signature (parsed : ParsedHeader) :
    parsePart parsed ('v' :: '1' :: '=' :: computeSignature hmac secret t body) =
      some { parsed with signatures := parsed.signatures ++ [computeSignature hmac secret t body] } := by
  have hpattern : signaturePattern (computeSignature hmac secret t body) = true := hmac.pattern _ _
  have htrim : trim (computeSignature hmac secret t body) = computeSignature hmac secret t body :=
    trim_eq_self fun c hc => not_whiteSpace_lowerHex (digits_computeSignature hc)
  have hkey : trim ['v', '1'] = ['v', '1'] := by decide
  simp [parsePart, hkey, htrim, hpattern, signatureVersion]

/-- A header of the service is read as what it was made of. -/
theorem parseHeader_build (ht : now / 1000 = t) (hless : t < 10 ^ 12) :
    parseHeader (some (buildSignatureHeader hmac secret body now)) =
      some (t, [computeSignature hmac secret t body]) := by
  have hparts : parseParts ((buildSignatureHeader hmac secret body now).splitOn ',') =
      some ⟨some t, [computeSignature hmac secret t body]⟩ := by
    rw [splitOn_build ht, parseParts, List.foldlM_cons, parsePart_timestamp _ hless]
    simp [parsePart_signature]
  cases hheader : buildSignatureHeader hmac secret body now with
  | nil => exact absurd hheader (List.cons_ne_nil _ _)
  | cons c rest =>
      rw [hheader] at hparts
      simp [parseHeader, hparts]

end Build

/-! ## What a signature binds -/

/-- Two pairs of key and text that are in use have the same digest only if they are the same. -/
def CollisionFree (hmac : Hmac) (used : Set (Text × Text)) : Prop :=
  Set.InjOn (fun p : Text × Text => hmac.digest p.1 p.2) used

/-- A header of the service verifies for its secret and its body within the tolerance and for nothing
else; and any header that verifies carries a signature of the body under the reported timestamp. -/
theorem signature_binds {hmac : Hmac} {used : Set (Text × Text)} (hfree : CollisionFree hmac used) :
    (∀ (secret secret' body body' : Text) (tolerance : Option ℚ) (now now' : Int),
      0 ≤ now / 1000 → now / 1000 < 10 ^ 12 →
      (secret, signedText (now / 1000) body) ∈ used →
      (secret', signedText (now / 1000) body') ∈ used →
      ((verifySignatureHeader hmac secret' (some (buildSignatureHeader hmac secret body now)) body'
          tolerance now').valid = true ↔
        secret' = secret ∧ body' = body ∧
          Within (tolerance.getD defaultToleranceSeconds) (now' / 1000) (now / 1000))) ∧
    (∀ (secret body : Text) (header : Option Text) (tolerance : Option ℚ) (now : Int),
      (verifySignatureHeader hmac secret header body tolerance now).valid = true →
      ∃ text t, header = some text ∧
        (verifySignatureHeader hmac secret header body tolerance now).timestamp = some t ∧
        Carries text signatureVersion (hmac.digest secret (signedText t body)) ∧
        (∃ given, Carries text ['t'] given ∧ timestampPattern given = true ∧ t = value 10 given) ∧
        Within (tolerance.getD defaultToleranceSeconds) (now / 1000) t) ∧
    ∀ (t t' : Int) (body body' : Text), signedText t body = signedText t' body' →
      t = t' ∧ body = body' := by
  refine ⟨?_, ?_, fun _ _ _ _ h => signedText_injective h⟩
  · intro secret secret' body body' tolerance now now' hnonneg hless hused hused'
    rcases Int.eq_ofNat_of_zero_le hnonneg with ⟨t, ht⟩
    have hsmall : t < 10 ^ 12 := by omega
    rw [valid_iff, parseHeader_build ht hsmall]
    rw [ht] at hused hused' ⊢
    constructor
    · rintro ⟨t', signatures, hparsed, _, hwithin, candidate, hmem, hbytes⟩
      rcases Prod.mk.inj (Option.some.inj hparsed) with ⟨rfl, rfl⟩
      rw [List.mem_singleton.1 hmem] at hbytes
      -- equal bytes are equal digests, and these are in use under one key and text
      have hdigest := eq_of_hexBuffer (hmac.pattern _ _) (hmac.pattern _ _) hbytes
      rcases Prod.mk.inj (hfree hused hused' hdigest) with ⟨hsecret, htext⟩
      exact ⟨hsecret.symm, (signedText_injective htext).2.symm, hwithin⟩
    · rintro ⟨rfl, rfl, hwithin⟩
      have hvalid : (verifySignatureHeader hmac secret'
          (some (buildSignatureHeader hmac secret' body' now)) body' tolerance now').timestamp =
          some t := by
        simp [verifySignatureHeader, parseHeader_build ht hsmall, hwithin]
      exact ⟨t, _, rfl, hvalid, hwithin, _, List.mem_singleton_self _, rfl⟩
  · intro secret body header tolerance now hvalid
    rcases valid_iff.1 hvalid with ⟨t, signatures, hparsed, hreported, hwithin, candidate, hmem, hbytes⟩
    rcases parseHeader_eq_some hparsed with ⟨text, rfl, htime, hsignatures⟩
    rcases hsignatures candidate hmem with ⟨hpattern, hcarries⟩
    -- the candidate in the header is the digest itself
    rw [eq_of_hexBuffer hpattern (hmac.pattern _ _) hbytes] at hcarries
    exact ⟨text, t, rfl, hreported, hcarries, htime, hwithin⟩

/-- The digests of two bodies, one second after the epoch, under two secrets; other texts are not
signed below. -/
def knownAnswers : List ((Text × Text) × Text) :=
  [(("key".toList, "1.x".toList),
      "fc4913c41a7bf793267e2a384f3261c9436ec2cd097bd745e7b0d99113f510ec".toList),
    (("key".toList, "1.y".toList),
      "8bdbbf8354ee48ba430b3ab3b42b1e3bf10e98326454a4bdf7e142f5d326cdea".toList),
    (("old".toList, "1.x".toList),
      "cef1e4c08d6c8ef180f60e9f07d8afa9cbbe729dfb34679eeafe308a95d88a13".toList),
    (("old".toList, "1.y".toList),
      "e692e88b7efbbd5db2a6b2c3679fa66b77c93ad69f771055f8124cc4f5068d75".toList)]

theorem knownAnswers_pattern (secret text : Text) :
    signaturePattern ((knownAnswers.lookup (secret, text)).getD (List.replicate 64 '0')) = true := by
  cases hfound : knownAnswers.lookup (secret, text) with
  | none => decide
  | some digest =>
      rcases List.lookup_eq_some_iff.1 hfound with ⟨before, after, hsplit, -⟩
      have hmem : digest ∈ knownAnswers.map Prod.snd := by simp [hsplit]
      have hall : ∀ digest ∈ knownAnswers.map Prod.snd, signaturePattern digest = true := by
        decide +kernel
      exact hall digest hmem

def sampleHmac : Hmac where
  digest secret text := (knownAnswers.lookup (secret, text)).getD (List.replicate 64 '0')
  pattern := knownAnswers_pattern

/-- A header made in the second after the epoch verifies 299 seconds later, and not after 302.  It
verifies neither for the other body nor under the other secret. -/
theorem signature_binds_sampleHmac :
    let header := some (buildSignatureHeader sampleHmac "key".toList ['x'] 1500)
    (verifySignatureHeader sampleHmac "key".toList header ['x'] none 300000).valid = true ∧
    ¬ (verifySignatureHeader sampleHmac "key".toList header ['x'] none 303000).valid = true ∧
    ¬ (verifySignatureHeader sampleHmac "key".toList header ['y'] none 300000).valid = true ∧
    ¬ (verifySignatureHeader sampleHmac "old".toList header ['x'] none 300000).valid = true := by
  let used : Set (Text × Text) := {pair | ∃ answer ∈ knownAnswers, answer.1 = pair}
  have hfree : CollisionFree sampleHmac used := by
    rintro p ⟨first, hfirst, rfl⟩ q ⟨second, hsecond, rfl⟩ hdigest
    have hall : ∀ first ∈ knownAnswers, ∀ second ∈ knownAnswers,
        sampleHmac.digest first.1.1 first.1.2 = sampleHmac.digest second.1.1 second.1.2 →
          first.1 = second.1 := by
      decide +kernel
    exact hall first hfirst second hsecond hdigest
  have hused : ∀ secret ∈ ["key".toList, "old".toList], ∀ body ∈ [['x'], ['y']],
      (secret, signedText 1 body) ∈ used := by
    decide +kernel
  have hbinds := fun secret body now' hsecret hbody =>
    (signature_binds hfree).1 "key".toList secret ['x'] body none 1500 now' (by decide) (by decide)
      (hused _ (by simp) _ (by simp)) (hused secret hsecret body hbody)
  intro header
  refine ⟨(hbinds "key".toList ['x'] 300000 (by simp) (by simp)).2 ⟨rfl, rfl, by decide⟩, ?_, ?_, ?_⟩
  · intro hvalid
    exact absurd ((hbinds _ _ _ (by simp) (by simp)).1 hvalid).2.2 (by decide)
  · intro hvalid
    exact absurd ((hbinds _ _ _ (by simp) (by simp)).1 hvalid).2.1 (by decide)
  · intro hvalid
    exact absurd ((hbinds _ _ _ (by simp) (by simp)).1 hvalid).1 (by decide)

end Signature
end Webhooks
end PaymentRail
