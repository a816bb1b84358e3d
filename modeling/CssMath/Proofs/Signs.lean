import CssMath.Proofs.AtomChain
import Mathlib.Algebra.Ring.Parity

/-!
# The signs of nested sums

A program of additions and subtractions composes a single sum.  Its terms are
the atoms of the program from left to right, and an atom has a minus just if
an odd number of subtractions is on its trail.

The invariant of the run is that the terms of a result are atoms linked by
their signs (`Linking.signs`).  The atom at the front has an empty trail, since
it stands first in every call around it.  One more subtraction on the trail of
an atom turns its sign, as subtracting a sum turns the signs in it
(`Linking.fits_subtract`), and a calculation of such terms is read again with
the same terms (`Linking.terms_ofCalc`).
-/

namespace CssMath

namespace Atom

/-- The sign of an atom: each subtraction on its trail turns it. -/
def sign (atom : Atom) : String :=
  if Odd (atom.trail.count .subtract) then "-" else "+"

theorem isSign (atom : Atom) : IsSign atom.sign := by
  unfold sign
  split
  · exact Or.inr rfl
  · exact Or.inl rfl

theorem sign_push_add (atom : Atom) :
    (atom.push .add).sign = atom.sign := by
  simp [sign, push, List.count_append]

theorem sign_push_subtract (atom : Atom) :
    (atom.push .subtract).sign = reverseSign atom.sign := by
  by_cases odd : Odd (atom.trail.count .subtract)
  · have even : ¬ Odd (atom.trail.count .subtract + 1) := by
      rw [Nat.not_odd_iff_even]
      exact odd.add_one
    simp [sign, push, List.count_append, odd, even, reverseSign]
  · have turned : Odd (atom.trail.count .subtract + 1) := by
      rw [Nat.not_odd_iff_even] at odd
      exact odd.add_one
    simp [sign, push, List.count_append, odd, turned, reverseSign]

end Atom

/-! ## Linking atoms by their signs -/

namespace Linking

/-- Atoms that are linked by their signs. -/
def signs : Linking where
  operator := Atom.sign
  member := Operand.asMember
  IsFirst atom := atom.trail = [] ∧ atom.operand.asMember.kind ≠ .sum
  IsLater _ := True

theorem fits_add :
    signs.Fits Arithmetic.add.operation "+" id where
  first atom isFirst := by
    rcases atom with ⟨trail, operand⟩
    -- It stood first so far, so the operation is all of its new trail.
    rcases isFirst with ⟨rfl, _⟩
    exact ⟨rfl, trivial⟩
  later atom _ := ⟨atom.sign_push_add, trivial⟩

theorem fits_subtract :
    signs.Fits Arithmetic.subtract.operation "-" reverseSign where
  first atom isFirst := by
    rcases atom with ⟨trail, operand⟩
    rcases isFirst with ⟨rfl, _⟩
    exact ⟨rfl, trivial⟩
  later atom _ := ⟨atom.sign_push_subtract, trivial⟩

/-- A sum of atoms that has been composed has these atoms for its terms. -/
theorem terms_ofCalc
    {atoms : List Atom} {chain : Chain}
    (ofAtoms : signs.OfAtoms atoms chain) :
    (Expr.calc (.ofChain .sum chain)).withoutCalc.terms = chain := by
  cases ofAtoms with
  | @intro leading others first later =>
      refine Expr.terms_withoutCalc_sumOf ?_ ?_
      · exact fun _ => ⟨leading.operand.kind_asMember_ne, first.2⟩
      · rw [List.forall_mem_map]
        exact fun atom _ => atom.isSign.trimBlanks

end Linking

/-! ## Programs of sums -/

/-- A sum or a difference of which an operand is there. -/
def Call.IsSum (call : Call Program) : Prop :=
  (call.operation = .add ∨ call.operation = .subtract) ∧
    ∃ operand ∈ call.operands, operand ≠ .absent

/-- Calls of sums, on operands that are not sums, compose chains of atoms. -/
theorem Linking.composes_sums :
    signs.Composes .sum Call.IsSum fun operand =>
      operand.asMember.kind ≠ .sum where
  call call isSum := by
    rcases isSum with ⟨isAdd | isSubtract, there⟩
    · rcases Call.exists_of_operation .add isAdd with ⟨operands, rfl⟩
      exact ⟨.add, operands, rfl, rfl, fits_add, there⟩
    · rcases Call.exists_of_operation .subtract isSubtract with
        ⟨operands, rfl⟩
      exact ⟨.subtract, operands, rfl, rfl, fits_subtract, there⟩
  atom operand noSum := by
    rw [OfOperand, Expr.chainAt, Expr.terms_of_kind_ne noSum]
    exact .intro ⟨rfl, noSum⟩ (by simp)
  chain atoms chain ofAtoms := by
    rw [OfOperand, Expr.chainAt, Operand.asMember, terms_ofCalc ofAtoms]
    exact ofAtoms

namespace Program

/--
A call of sums and differences, nested in any way, composes the calculation of
its atoms from left to right, each behind the first with the sign of its trail.
-/
theorem run_nested_sums
    {call : Call Program}
    (sums :
      (Program.apply call).Every Call.IsSum fun operand =>
        operand.asMember.kind ≠ .sum) :
    ∃ leading others,
      (Program.apply call).atoms? = some (leading :: others) ∧
        (Program.apply call).run =
          .ok (some (.expr (.calc (.sumOf leading.operand.asMember
            (others.map fun atom =>
              (atom.sign, atom.operand.asMember)))))) := by
  rcases Linking.composes_sums.run_apply sums with
    ⟨leading, others, atoms, -, success⟩
  exact ⟨leading, others, atoms, success⟩

/-- One less what is left when two is less what is left of three less four. -/
def alternating : Call Program :=
  .arithmetic .subtract
    [ .given (.scalar (.integer 1)),
      .apply (.arithmetic .subtract
        [ .absent,
          .given (.scalar (.integer 2)),
          .apply (.arithmetic .subtract
            [ .given (.scalar (.integer 3)),
              .given (.scalar (.integer 4))])])]

theorem run_nested_sums_alternating :
    (Program.apply alternating).run =
      .ok (some (.expr (.calc (.sum (.number "1") "-" (.number "2")
        [("+", .number "3"), ("-", .number "4")])))) := by
  have isSum :
      ∀ operands : List Program, (∃ operand ∈ operands, operand ≠ .absent) →
        (Call.arithmetic .subtract operands).IsSum := by
    intro operands there
    exact ⟨Or.inr rfl, there⟩
  have noSum :
      ∀ number, (Operand.scalar (.integer number)).asMember.kind ≠ .sum := by
    intro number
    simp [Operand.asMember, Scalar.expr, Expr.numberOf, Expr.kind,
      LeafKind.kind]
  have sums :
      (Program.apply alternating).Every Call.IsSum fun operand =>
        operand.asMember.kind ≠ .sum := by
    refine .apply (isSum _ ⟨.given (.scalar (.integer 1)), by simp⟩) ?_
    simp only [alternating, Call.operands, List.forall_mem_cons]
    refine ⟨.given (noSum 1), ?_, by simp⟩
    refine .apply (isSum _ ⟨.given (.scalar (.integer 2)), by simp⟩) ?_
    simp only [Call.operands, List.forall_mem_cons]
    refine ⟨.absent, .given (noSum 2), ?_, by simp⟩
    refine .apply (isSum _ ⟨.given (.scalar (.integer 3)), by simp⟩) ?_
    simp only [Call.operands, List.forall_mem_cons]
    exact ⟨.given (noSum 3), .given (noSum 4), by simp⟩
  rcases run_nested_sums sums with ⟨leading, others, atoms, success⟩
  cases atoms
  exact success

end Program

end CssMath
