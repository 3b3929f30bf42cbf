import Feedpulse.JsonText
import Mathlib.Algebra.Group.Nat.Defs

/-!
# Dead letters

`DeadLetterRepository.record` stores what is left of a job that has failed for good. Its payload and
its error are cut to a size first. `recordable_iff` says which jobs can be recorded: PostgreSQL
refuses U+0000, and in a payload half a surrogate pair, and the preview of a payload that is too
large may end in the middle of a pair.
-/

namespace Feedpulse

namespace DeadLetters

open JsonText

/-! ## Values -/

/-- The digits of a whole number. -/
theorem digit_of_mem_natural {n : Nat} {u : UInt16} (hu : u ∈ utf16 (toString n)) :
    0x30 ≤ u ∧ u ≤ 0x39 := by
  obtain ⟨k, hk, rfl⟩ := List.mem_map.mp hu
  obtain ⟨c, hc, hk⟩ := List.mem_flatMap.mp hk
  obtain ⟨hlow, hhigh⟩ := digit_of_mem_toString hc
  rw [CanonicalLink.utf16Units, if_pos (by omega), List.mem_singleton] at hk
  have hsize : k % 2 ^ 16 = k := by omega
  simp only [UInt16.le_iff_toNat_le, UInt16.toNat_ofNat', hsize, UInt16.reduceToNat]
  omega

/-- A whole number. -/
def natural (n : Nat) : JsonNumber where
  text := utf16 (toString n)
  digits _ hu := .inl (digit_of_mem_natural hu)

/-- `JSON.stringify` of the runtime: it throws if the text is longer than a string may be, or if the
nesting exhausts the stack. -/
structure JsonRuntime where
  /-- length of the longest string -/
  maxLength : Nat
  /-- no longer than the language allows -/
  maxLength_le : maxLength ≤ 2 ^ 53 - 1
  /-- whether the nesting of a value exhausts the stack -/
  exhausts : JsonValue → Bool

/-- `JSON.stringify(value)`. -/
def JsonRuntime.stringify (rt : JsonRuntime) (value : JsonValue) : Option Units :=
  if rt.exhausts value || rt.maxLength < value.text.length then none else some value.text

/-! ## The repository -/

/-- `DEAD_LETTER_MAX_PAYLOAD_BYTES`. -/
def deadLetterMaxPayloadBytes : Nat := 8192

/-- `DEAD_LETTER_MAX_ERROR_CHARS`. -/
def deadLetterMaxErrorChars : Nat := 2000

/-- The marker of a payload that has no text. -/
def notSerializable : JsonValue :=
  .object (.cons (utf16 "truncated") (.bool true)
    (.cons (utf16 "reason") (.string (utf16 "not_serializable")) .nil))

/-- The marker of a payload that is too large. -/
def payloadTooLarge (byteLength : Nat) (preview : Units) : JsonValue :=
  .object (.cons (utf16 "truncated") (.bool true)
    (.cons (utf16 "reason") (.string (utf16 "payload_too_large"))
      (.cons (utf16 "byteLength") (.number (natural byteLength))
        (.cons (utf16 "maxBytes") (.number (natural deadLetterMaxPayloadBytes))
          (.cons (utf16 "preview") (.string preview) .nil)))))

/-- `capDeadLetterPayload`. -/
def capDeadLetterPayload (rt : JsonRuntime) (payload : JsonValue) : JsonValue :=
  match rt.stringify payload with
  | none => notSerializable
  | some serialized =>
    let byteLength := utf8Length serialized
    if byteLength ≤ deadLetterMaxPayloadBytes then payload
    else payloadTooLarge byteLength (serialized.take 512)

/-- `capDeadLetterError`. -/
def capDeadLetterError (error : Option Units) : Option Units :=
  error.map fun text =>
    if text.length ≤ deadLetterMaxErrorChars then text
    else text.take deadLetterMaxErrorChars ++ utf16 "… [truncated]"

/-- What `record` sends for the columns `payload` and `error`: what is left of a payload has a text
again. -/
structure DeadLetterTexts where
  /-- `payload`, `jsonb` -/
  payload : Units
  /-- `error`, `text` -/
  error : Option Units
  deriving DecidableEq, Repr

/-- `record`. -/
def record (rt : JsonRuntime) (payload : JsonValue) (error : Option Units) : DeadLetterTexts where
  payload := (capDeadLetterPayload rt payload).text
  error := capDeadLetterError error

/-- Whether a `text` column accepts a text: halves of pairs are sent as U+FFFD. -/
def textAccepts (text : Units) : Bool := !text.contains 0

/-- **The dead letter can be stored**, and takes no more than a fixed size. -/
structure Stored (texts : DeadLetterTexts) : Prop where
  /-- the payload is accepted -/
  payload : jsonbAccepts texts.payload = true
  /-- the error is accepted -/
  error : ∀ text ∈ texts.error, textAccepts text = true
  /-- the payload is bounded -/
  payloadSize : utf8Length texts.payload ≤ 10000
  /-- the error is bounded -/
  errorSize : ∀ text ∈ texts.error, utf8Length text ≤ 10000

/-- **What is stored of a payload is clean**: the payload itself, or the beginning of its text. -/
def PayloadStorable (rt : JsonRuntime) (payload : JsonValue) : Prop :=
  ∀ serialized ∈ rt.stringify payload,
    if utf8Length serialized ≤ deadLetterMaxPayloadBytes then payload.clean = true
    else ∀ u ∈ (serialized.take 512).getLast?, isHighSurrogate u = false

/-- **What is stored of an error** has no U+0000. -/
def ErrorStorable (error : Option Units) : Prop :=
  ∀ text ∈ error, 0 ∉ text.take deadLetterMaxErrorChars

/-! ## The payload -/

theorem length_natural {n k : Nat} (hk : 0 < k) (h : n < 10 ^ k) :
    (natural n).text.length ≤ k := by
  change (utf16 (toString n)).length ≤ k
  rw [length_utf16_toString]
  exact (Nat.length_repr_le_iff hk).mpr h

/-- A marker is little more than its preview. -/
theorem length_payloadTooLarge (byteLength : Nat) (preview : Units) :
    (payloadTooLarge byteLength preview).text.length
      = 90 + (natural byteLength).text.length + (quoteUnits preview).length := by
  have htruncated : (quote (utf16 "truncated")).length = 11 := by decide +kernel
  have hreason : (quote (utf16 "reason")).length = 8 := by decide +kernel
  have hlarge : (quote (utf16 "payload_too_large")).length = 19 := by decide +kernel
  have hbytes : (quote (utf16 "byteLength")).length = 12 := by decide +kernel
  have hmax : (quote (utf16 "maxBytes")).length = 10 := by decide +kernel
  have hlimit : (natural deadLetterMaxPayloadBytes).text.length = 4 := by decide +kernel
  have hpreview : (quote (utf16 "preview")).length = 9 := by decide +kernel
  have htrue : (utf16 "true").length = 4 := by decide +kernel
  have hquote : (quote preview).length = (quoteUnits preview).length + 2 := by simp [quote]
  simp only [payloadTooLarge, JsonValue.text, Fields.text, comma, List.length_append, htruncated,
    hreason, hlarge, hbytes, hmax, hlimit, hpreview, htrue, hquote, List.length_cons,
    List.length_nil, if_true, Bool.false_eq_true, if_false]
  omega

/-- **The payload is bounded**, whatever it was. -/
theorem payload_size (rt : JsonRuntime) (payload : JsonValue) :
    utf8Length (capDeadLetterPayload rt payload).text ≤ 10000 := by
  unfold capDeadLetterPayload
  rcases hserialized : rt.stringify payload with _ | serialized
  · change utf8Length notSerializable.text ≤ 10000
    decide +kernel
  · unfold JsonRuntime.stringify at hserialized
    split at hserialized
    · cases hserialized
    rename_i hlength
    obtain rfl := Option.some.inj hserialized
    dsimp only
    split
    · rename_i hsmall
      exact Nat.le_trans hsmall (by decide)
    · -- 512 units of the text, each of which may be escaped once more
      have hmax := rt.maxLength_le
      have hlength : payload.text.length ≤ rt.maxLength := by
        simp only [Bool.or_eq_true, decide_eq_true_eq, not_or, Nat.not_lt] at hlength
        exact hlength.2
      have hbytes := utf8Length_le payload.text
      have hdigits := length_natural (k := 17) (n := utf8Length payload.text) (by decide) (by omega)
      have hquote := length_quoteUnits (payload.text.take 512)
      have hcut := List.length_take_le 512 payload.text
      refine Nat.le_trans (utf8Length_le _) ?_
      rw [length_payloadTooLarge]
      omega

theorem clean_payloadTooLarge (byteLength : Nat) (preview : Units) :
    (payloadTooLarge byteLength preview).clean = clean preview := by
  have hnames : (clean (utf16 "truncated") && clean (utf16 "reason") &&
      clean (utf16 "payload_too_large") && clean (utf16 "byteLength") &&
      clean (utf16 "maxBytes") && clean (utf16 "preview")) = true := by decide +kernel
  simp only [Bool.and_eq_true] at hnames
  simp [payloadTooLarge, JsonValue.clean, Fields.clean, hnames]

/-- **The payload is accepted exactly if** what is stored of it is clean. -/
theorem payload_accepted_iff (rt : JsonRuntime) (payload : JsonValue) :
    jsonbAccepts (capDeadLetterPayload rt payload).text = true ↔ PayloadStorable rt payload := by
  rw [jsonbAccepts_text]
  unfold capDeadLetterPayload PayloadStorable
  rcases hserialized : rt.stringify payload with _ | serialized
  · have hmarker : notSerializable.clean = true := by decide +kernel
    exact iff_of_true hmarker nofun
  · have htext : serialized = payload.text := by
      unfold JsonRuntime.stringify at hserialized
      split at hserialized
      · cases hserialized
      · exact (Option.some.inj hserialized).symm
    subst htext
    simp only [Option.mem_def, Option.some.injEq, forall_eq']
    split
    · rfl
    · rw [clean_payloadTooLarge, clean_take payload.clean_text]
      rfl

/-! ## The error -/

theorem error_size (error : Option Units) :
    ∀ text ∈ capDeadLetterError error, utf8Length text ≤ 10000 := by
  rintro _ hmem
  obtain ⟨text, -, rfl⟩ := Option.map_eq_some_iff.mp hmem
  refine Nat.le_trans (utf8Length_le _) ?_
  have hmark : (utf16 "… [truncated]").length = 13 := by decide +kernel
  split
  · rename_i hshort
    unfold deadLetterMaxErrorChars at hshort
    omega
  · have hcut := List.length_take_le deadLetterMaxErrorChars text
    rw [List.length_append, hmark]
    unfold deadLetterMaxErrorChars at hcut ⊢
    omega

theorem error_accepted_iff (error : Option Units) :
    (∀ text ∈ capDeadLetterError error, textAccepts text = true) ↔ ErrorStorable error := by
  have hmark : 0 ∉ utf16 "… [truncated]" := by decide +kernel
  rcases error with _ | text
  · exact iff_of_true nofun nofun
  · have haccepts : textAccepts (if text.length ≤ deadLetterMaxErrorChars then text
        else text.take deadLetterMaxErrorChars ++ utf16 "… [truncated]") = true ↔
          0 ∉ text.take deadLetterMaxErrorChars := by
      split
      · rename_i hshort
        simp [textAccepts, List.take_of_length_le hshort]
      · simp [textAccepts, hmark]
    simpa [capDeadLetterError, ErrorStorable] using haccepts

/-- **A terminal failure can be recorded exactly if** what is stored of the payload is clean and
what is stored of the error has no U+0000. Its size is bounded in any case. -/
theorem recordable_iff (rt : JsonRuntime) (payload : JsonValue) (error : Option Units) :
    Stored (record rt payload error) ↔ PayloadStorable rt payload ∧ ErrorStorable error := by
  rw [← payload_accepted_iff, ← error_accepted_iff]
  constructor
  · exact fun h => ⟨h.payload, h.error⟩
  · exact fun ⟨hpayload, herror⟩ =>
      ⟨hpayload, herror, payload_size rt payload, error_size error⟩

/-- A runtime with the strings of V8. -/
def v8 : JsonRuntime where
  maxLength := 2 ^ 29 - 24
  maxLength_le := by decide
  exhausts _ := false

/-- The job of an upload with U+0000 in the document. -/
def uploadJob : JsonValue :=
  .object (.cons (utf16 "opmlXml") (.string (utf16 "<opml>" ++ [0])) .nil)

theorem upload_not_recorded : ¬∀ (rt : JsonRuntime) (payload : JsonValue) (error : Option Units),
    Stored (record rt payload error) := by
  intro h
  have hstored := (h v8 uploadJob none).payload
  exact absurd hstored (by decide +kernel)

end DeadLetters

end Feedpulse
