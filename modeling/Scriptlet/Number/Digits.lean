/-!
# The value of digits

Digits are listed from the lowest place up. Two neighbours in a base make one digit in the
square of the base, so a long list is halved again and again; `joinedValue_eq` says that
the value stays the same. Halving keeps the cost of long numbers low.
-/

namespace Scriptlet
namespace Number

/-- The value of digits in a base. -/
def placeValue (base : Nat) (digits : List Nat) : Nat :=
  digits.foldr (fun digit value => digit + base * value) 0

/-- Joins each two neighbours to a digit in the square of the base. -/
def joinPairs (base : Nat) : List Nat → List Nat
  | low :: high :: rest => (low + base * high) :: joinPairs base rest
  | rest => rest

/-- The value of digits in a base, after joining neighbours a number of times. -/
def joinedValue : Nat → Nat → List Nat → Nat
  | 0, base, digits => placeValue base digits
  | rounds + 1, base, digits => joinedValue rounds (base * base) (joinPairs base digits)

theorem placeValue_joinPairs (base : Nat) (digits : List Nat) :
    placeValue (base * base) (joinPairs base digits) = placeValue base digits := by
  fun_induction joinPairs base digits with
  | case1 low high rest ih =>
    simp only [placeValue, List.foldr_cons] at ih ⊢
    rw [ih, Nat.mul_add, Nat.mul_assoc, Nat.add_assoc]
  | case2 rest short =>
    match rest, short with
    | [], _ => rfl
    | [_], _ => simp [placeValue]
    | low :: high :: more, short => exact absurd rfl (short low high more)

/-- Joining neighbours keeps the value. -/
theorem joinedValue_eq (rounds base : Nat) (digits : List Nat) :
    joinedValue rounds base digits = placeValue base digits := by
  induction rounds generalizing base digits with
  | zero => rfl
  | succ rounds ih => rw [joinedValue, ih, placeValue_joinPairs]

end Number
end Scriptlet
