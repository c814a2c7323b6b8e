import Sieve.Proofs.Number.DecimalOrder
import Sieve.Proofs.Outcome
import Sieve.Value.Order

/-!
# Values beside themselves

No value stands in front of itself. The question may be refused, as for maps, which have no order, or for
decimals that are not numbers; then it is refused for *in front of or equal to* as well.

Main statement: `Value.precedes_self`.
-/

namespace Sieve

theorem Timestamp.compare?_self (t : Timestamp) : t.compare? t = some .eq := by
  unfold Timestamp.compare?
  cases t.offset <;> simp

theorem TimeOfDay.compare?_self (t : TimeOfDay) : t.compare? t = some .eq := by
  simp [TimeOfDay.compare?_sameOffset]

namespace Value

theorem compareOctets_self (b : List UInt8) : compareOctets b b = .eq := by
  induction b with
  | nil => rfl
  | cons a r ih => simp [compareOctets, ih]

theorem compareTexts_self (s : List Char) : compareTexts s s = .eq := by
  induction s with
  | nil => rfl
  | cons a r ih => simp [compareTexts, ih]

theorem comparePoints_self (ps : List CodePoint) : comparePoints ps ps = .eq := by
  induction ps with
  | nil => rfl
  | cons p r ih => simp [comparePoints, ih]

theorem orMismatch_self {o : Option Ordering} (h : o = some .eq) :
    orMismatch false o = (fun _ => false) <$> orMismatch true o := by
  rw [h]
  rfl

theorem numbersOrdered_self (exact : Bool) (d : Decimal) :
    numbersOrdered false exact d d = (fun _ => false) <$> numbersOrdered true exact d d := by
  unfold numbersOrdered
  cases hn : d.isNan with
  | true => cases exact <;> rfl
  | false =>
    have hself : Decimal.compare d d = .eq := by
      rw [Decimal.compare_eq_level hn hn]
      exact compare_eq_iff_eq.2 rfl
    rw [hself]
    rfl

mutual

/-- **No value stands in front of itself**; the question is refused only together with the question
whether it is in front of or equal to itself. -/
theorem precedes_self (x : Value) :
    x.precedes false x = (fun _ => false) <$> x.precedes true x := by
  match x with
  | .null | .map _ | .member _ | .object _ _ | .zone _ | .feature _ => simp [precedes, number?]
  | .bool _ | .float _ | .decimal _ =>
    simp only [precedes, number?]
    exact numbersOrdered_self _ _
  | .int i => simp [ordered]
  | .text s => simp [ordered, compareTexts_self]
  | .broken t => simp [precedes, ordered, comparePoints_self]
  | .bytes b => simp [precedes, ordered, compareOctets_self]
  | .date d => simp [precedes, Date.compare, ordered]
  | .time t =>
    simp only [precedes]
    exact orMismatch_self t.compare?_self
  | .timestamp t =>
    simp only [precedes]
    exact orMismatch_self t.compare?_self
  | .uuid u => simp [precedes, ordered]
  | .list xs | .tuple xs =>
    simp only [precedes]
    exact precedesItems_self xs
  | .set xs =>
    simp only [precedes]
    cases equalSets xs xs with
    | error e => rfl
    | ok b => simp

theorem precedesItems_self (xs : List Value) :
    precedesItems false xs xs = (fun _ => false) <$> precedesItems true xs xs := by
  match xs with
  | [] => simp [precedesItems]
  | x :: xs =>
    simp only [precedesItems]
    -- An item may differ from itself, as numbers that are no numbers do, and then it decides.
    cases equal x x with
    | error e => rfl
    | ok b =>
      cases b with
      | true => simpa using precedesItems_self xs
      | false => simpa using precedes_self x

end

end Value

end Sieve
