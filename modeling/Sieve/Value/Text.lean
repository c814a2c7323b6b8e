import Sieve.Error
/-!
# Texts of values

Values are written as texts where a name, a term or a message is made of them. That fails if an
integer in the value has too many digits.

* `Value.written` is the text of a value; `Value.toRaw` and `Value.asText` are the same with the
  surrogates of a text kept, as a text and as a value.

Main statements: `written_eq_ok_iff`, `written_text`, `asText_ofRaw`.
-/

namespace Sieve

namespace Value

/-- The text of a value, unless an integer in it is too long. -/
def written (v : Value) : Except Error String :=
  if v.isWritable then .ok v.render else .error .malformed

theorem written_eq_ok_iff {v : Value} {s : String} :
    v.written = .ok s ↔ v.isWritable = true ∧ v.render = s := by
  unfold written
  split <;> simp_all

@[simp] theorem written_text (s : String) : (text s).written = .ok s := by
  simp [written]

/-- A text is written, whatever surrogates it holds. -/
theorem written_ofRaw (s : RawText) : (ofRaw s).written = .ok (ofRaw s).render := by
  cases s with
  | whole s => simp [ofRaw]
  | broken t => simp [ofRaw, written, isWritable, isQuotable]

/-- The text of a value; a text with surrogates stays as it is. -/
def toRaw : Value → Except Error RawText
  | broken t => .ok (.broken t)
  | v => .whole <$> v.written

@[simp] theorem toRaw_ofRaw (s : RawText) : (ofRaw s).toRaw = .ok s := by
  cases s <;> simp [ofRaw, toRaw, Functor.map, Except.map]

/-- Whether a value is a text with surrogates. -/
def isBroken : Value → Bool
  | broken _ => true
  | _ => false

/-- The text of a value as a value. -/
def asText (v : Value) : Except Error Value :=
  ofRaw <$> v.toRaw

/-- Texts are texts already. -/
@[simp] theorem asText_ofRaw (s : RawText) : (ofRaw s).asText = .ok (ofRaw s) := by
  simp [asText, Functor.map, Except.map]

@[simp] theorem asText_text (s : String) : (text s).asText = .ok (.text s) :=
  asText_ofRaw (.whole s)

end Value

end Sieve
