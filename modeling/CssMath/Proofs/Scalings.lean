import CssMath.Proofs.AtomChain

/-!
# The operators of nested products

A program of multiplications and divisions composes a single product.  Its
factors are the atoms of the program from left to right, and a later atom has
the operator of the innermost call in which it stands behind the first operand.
The calls around that one add to its trail, but not in front of it.

An atom that is a sum is a factor by its brackets, and brackets are neither a
sum nor a product.  So a product that is composed is read again with the factors
of which it was composed, even if there is only one (`Linking.factors_ofCalc`).
-/

namespace CssMath

/-! ## Factors -/

/-- The factor that an operand becomes unless it becomes a product. -/
def Operand.asFactor (operand : Operand) : Expr :=
  if operand.asMember.kind = .sum then
    .group operand.asMember
  else
    operand.asMember

theorem Operand.factors_asMember
    {operand : Operand} (noProduct : operand.asMember.kind ≠ .product) :
    operand.asMember.factors = ⟨operand.asFactor, []⟩ := by
  by_cases isSum : operand.asMember.kind = .sum
  · rcases Expr.exists_of_kind_sum isSum with
      ⟨first, operator, second, rest, equal⟩
    simp [Operand.asFactor, equal, Expr.kind, Expr.factors]
  · rw [Operand.asFactor, if_neg isSum]
    exact Expr.factors_of_kind_ne isSum noProduct

/-- Nothing is left to take apart in a factor. -/
theorem Operand.kind_asFactor
    {operand : Operand} (noProduct : operand.asMember.kind ≠ .product) :
    operand.asFactor.kind ≠ .calc ∧
      operand.asFactor.kind ≠ .sum ∧
      operand.asFactor.kind ≠ .product := by
  unfold Operand.asFactor
  split
  · simp [Expr.kind]
  · rename_i noSum
    exact ⟨operand.kind_asMember_ne, noSum, noProduct⟩

namespace Atom

/-- The operator of an atom: that of the innermost operation on its trail. -/
def scaling (atom : Atom) : String :=
  if atom.trail.head? = some .divide then "/" else "*"

/-- The innermost operation on the trail is a multiplication or a division. -/
def IsScaled (atom : Atom) : Prop :=
  atom.trail.head? = some .multiply ∨ atom.trail.head? = some .divide

/-- A longer trail has the same innermost operation. -/
theorem head?_trail_push
    {atom : Atom} (scaled : atom.IsScaled) (operation : Operation) :
    (atom.push operation).trail.head? = atom.trail.head? := by
  rcases atom with ⟨trail, operand⟩
  cases trail with
  | nil => simp [IsScaled] at scaled
  | cons innermost outer => rfl

end Atom

/-- Atoms that are linked by the operators of products. -/
def Linking.scalings : Linking where
  operator := Atom.scaling
  member := Operand.asFactor
  IsFirst atom := atom.trail = [] ∧ atom.operand.asMember.kind ≠ .product
  IsLater := Atom.IsScaled

theorem Linking.fits_scalings
    {operation : Operation} {operator : String}
    (scales : operation = .multiply ∨ operation = .divide)
    (alone : ∀ operand, (Atom.mk [operation] operand).scaling = operator) :
    Linking.scalings.Fits operation operator id where
  first atom isFirst := by
    rcases atom with ⟨trail, operand⟩
    rcases isFirst with ⟨rfl, _⟩
    refine ⟨alone operand, ?_⟩
    rcases scales with rfl | rfl
    · exact Or.inl rfl
    · exact Or.inr rfl
  later atom isLater := by
    have same := Atom.head?_trail_push isLater operation
    constructor
    · simp only [Linking.scalings, Atom.scaling, same, id_eq]
    · simpa only [Linking.scalings, Atom.IsScaled, same] using isLater

/-- A product of atoms that has been composed has these atoms for its factors. -/
theorem Linking.factors_ofCalc
    {atoms : List Atom} {chain : Chain}
    (ofAtoms : Linking.scalings.OfAtoms atoms chain) :
    (Expr.calc (.ofChain .product chain)).withoutCalc.factors = chain := by
  cases ofAtoms with
  | intro first later =>
      exact Expr.factors_withoutCalc_productOf fun _ =>
        Operand.kind_asFactor first.2

/-! ## Programs of products -/

/-- A product or a quotient of which an operand is there. -/
def Call.IsProduct (call : Call Program) : Prop :=
  (call.operation = .multiply ∨ call.operation = .divide) ∧
    ∃ operand ∈ call.operands, operand ≠ .absent

/-- Calls of products, on operands that are not products, compose chains of atoms. -/
theorem Linking.composes_products :
    scalings.Composes .product Call.IsProduct fun operand =>
      operand.asMember.kind ≠ .product where
  call call isProduct := by
    rcases isProduct with ⟨isMultiply | isDivide, there⟩
    · rcases Call.exists_of_operation .multiply isMultiply with
        ⟨operands, rfl⟩
      exact ⟨.multiply, operands, rfl, rfl,
        fits_scalings (Or.inl rfl) fun _ => rfl, there⟩
    · rcases Call.exists_of_operation .divide isDivide with ⟨operands, rfl⟩
      exact ⟨.divide, operands, rfl, rfl,
        fits_scalings (Or.inr rfl) fun _ => rfl, there⟩
  atom operand noProduct := by
    rw [OfOperand, Expr.chainAt_of_ne (by simp),
      Operand.factors_asMember noProduct]
    exact .intro ⟨rfl, noProduct⟩ (by simp)
  chain atoms chain ofAtoms := by
    rw [OfOperand, Expr.chainAt_of_ne (by simp), Operand.asMember,
      factors_ofCalc ofAtoms]
    exact ofAtoms

namespace Program

/--
A call of products and quotients, nested in any way, composes the calculation
of its atoms from left to right.  Each behind the first has the operator of the
innermost operation in which it stands behind the first operand.
-/
theorem run_nested_products
    {call : Call Program}
    (products :
      (Program.apply call).Every Call.IsProduct fun operand =>
        operand.asMember.kind ≠ .product) :
    ∃ leading others,
      (Program.apply call).atoms? = some (leading :: others) ∧
        (∀ atom ∈ others, atom.IsScaled) ∧
        (Program.apply call).run =
          .ok (some (.expr (.calc (.productOf leading.operand.asFactor
            (others.map fun atom =>
              (atom.scaling, atom.operand.asFactor)))))) := by
  exact Linking.composes_products.run_apply products

/-- A sum that is multiplied alone, divided by a product of three and four. -/
def nestedQuotient : Call Program :=
  .arithmetic .divide
    [ .absent,
      .apply (.arithmetic .multiply
        [.given (.expr (.calc (.sum (.number "1") "+" (.number "2") [])))]),
      .apply (.arithmetic .multiply
        [ .absent,
          .given (.scalar (.integer 3)),
          .given (.scalar (.integer 4))])]

theorem run_nested_products_nestedQuotient :
    ((Program.apply nestedQuotient).Every Call.IsProduct fun operand =>
        operand.asMember.kind ≠ .product) ∧
      (Program.apply nestedQuotient).run =
        .ok (some (.expr (.calc (.product
          (.group (.sum (.number "1") "+" (.number "2") []))
          "/" (.number "3") [("*", .number "4")])))) := by
  have products :
      (Program.apply nestedQuotient).Every Call.IsProduct fun operand =>
        operand.asMember.kind ≠ .product := by
    refine .apply ⟨Or.inr rfl, _, .tail _ (.head _), by simp⟩ ?_
    simp only [nestedQuotient, Call.operands, List.forall_mem_cons]
    refine ⟨.absent, ?_, ?_, by simp⟩
    · refine .apply ⟨Or.inl rfl, _, .head _, by simp⟩ ?_
      simp only [Call.operands, List.forall_mem_cons]
      exact ⟨.given (by simp [Operand.asMember, Expr.withoutCalc, Expr.kind]),
        by simp⟩
    · refine .apply ⟨Or.inl rfl, _, .tail _ (.head _), by simp⟩ ?_
      simp only [Call.operands, List.forall_mem_cons]
      exact
        ⟨.absent, .given (Scalar.integer 3).kind_expr_ne.2.2,
          .given (Scalar.integer 4).kind_expr_ne.2.2, by simp⟩
  refine ⟨products, ?_⟩
  rcases run_nested_products products with
    ⟨leading, others, atoms, scaled, success⟩
  cases atoms
  exact success

end Program

end CssMath
