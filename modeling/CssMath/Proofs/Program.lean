import CssMath.Proofs.Call

/-!
# Programs

A program composes expressions from operands by calls within calls.  It is
absent, an operand that is given, or a call of programs.  Running a program
runs the operands of its outermost call from left to right and then makes the
call; the first fault ends the run.

What is read off a program is read with `Program.fold`, which replaces each of
the three ways to make a program by a value or a function.  `run_apply` and
`atoms?_apply` unfold the two readings of this module by one call.
-/

namespace CssMath

universe u

/-- A composition of compositions. -/
inductive Program where
  | absent
  | given (operand : Operand)
  | apply (call : Call Program)

namespace Program

/-! ## Folding -/

variable
    {α : Type u}
    (absent : α)
    (given : Operand → α)
    (apply : Call α → α)

mutual

/-- Read a program from the inside out. -/
def fold : Program → α
  | .absent => absent
  | .given operand => given operand
  | .apply (.arithmetic operation operands) =>
      apply (.arithmetic operation (foldAll operands))
  | .apply (.extremum which operands) =>
      apply (.extremum which (foldAll operands))
  | .apply (.clamp lower preferred upper) =>
      apply (.clamp (fold lower) (fold preferred) (fold upper))
  | .apply (.exp operand) => apply (.exp (fold operand))
  | .apply (.pow base exponent) => apply (.pow (fold base) (fold exponent))
  | .apply (.round strategy operand interval) =>
      apply (.round strategy (fold operand) (fold interval))

/-- Read each program of a list. -/
def foldAll : List Program → List α
  | [] => []
  | program :: rest => fold program :: foldAll rest

end

theorem foldAll_eq_map (programs : List Program) :
    foldAll absent given apply programs =
      programs.map (fold absent given apply) := by
  induction programs with
  | nil => rfl
  | cons program rest inductionHypothesis =>
      simp [foldAll, inductionHypothesis]

/-- A call is read after its operands. -/
theorem fold_apply (call : Call Program) :
    fold absent given apply (.apply call) =
      apply (call.map (fold absent given apply)) := by
  cases call <;> simp [fold, Call.map, foldAll_eq_map]

/-! ## Running -/

/-- Compose what a program stands for; nothing if it is absent. -/
def run : Program → Except Fault (Option Operand) :=
  fold (.ok none) (fun operand => .ok (some operand)) fun call => do
    let operands ← call.traverse id
    return some (.expr (← operands.compose))

theorem run_apply (call : Call Program) :
    (Program.apply call).run = do
      let operands ← call.traverse run
      return some (.expr (← operands.compose)) := by
  rw [run, fold_apply, Call.traverse_map]

/-- What the run of a call needs: the runs of its operands, and the call. -/
theorem run_apply_eq_ok_iff
    {call : Call Program} {result : Option Operand} :
    (Program.apply call).run = .ok result ↔
      ∃ operands expression,
        call.Related (fun program operand => program.run = .ok operand)
            operands ∧
          operands.compose = .ok expression ∧
          some (.expr expression) = result := by
  rw [run_apply]
  constructor
  · intro success
    rcases bind_eq_ok_iff.mp success with ⟨operands, found, success⟩
    rcases bind_eq_ok_iff.mp success with ⟨expression, composed, equal⟩
    cases equal
    exact
      ⟨operands, expression, Call.traverse_eq_ok_iff.mp found,
        composed, rfl⟩
  · rintro ⟨operands, expression, related, composed, rfl⟩
    have found := Call.traverse_eq_ok_iff.mpr related
    exact
      bind_eq_ok_iff.mpr
        ⟨operands, found, bind_eq_ok_iff.mpr ⟨expression, composed, rfl⟩⟩

/-! ## Conditions on programs -/

/-- Every call in a program has one property and every operand another. -/
inductive Every
    (onCall : Call Program → Prop) (onOperand : Operand → Prop) :
    Program → Prop where
  | absent :
      Every onCall onOperand .absent
  | given
      {operand : Operand}
      (holds : onOperand operand) :
      Every onCall onOperand (.given operand)
  | apply
      {call : Call Program}
      (here : onCall call)
      (below : ∀ program ∈ call.operands, Every onCall onOperand program) :
      Every onCall onOperand (.apply call)

theorem sizeOf_operand_lt
    {program : Program} {call : Call Program}
    (member : program ∈ call.operands) :
    sizeOf program < sizeOf call := by
  cases call with
  | arithmetic operation operands =>
      rw [Call.operands] at member
      have bound := List.sizeOf_lt_of_mem member
      simp
      omega
  | extremum which operands =>
      rw [Call.operands] at member
      have bound := List.sizeOf_lt_of_mem member
      simp
      omega
  | _ =>
      simp [Call.operands] at member
      rcases member with rfl | rfl | rfl <;> simp <;> omega

/-- What holds of all calls and of all operands holds throughout a program. -/
theorem every_of_forall
    {onCall : Call Program → Prop}
    {onOperand : Operand → Prop}
    (calls : ∀ call, onCall call)
    (operands : ∀ operand, onOperand operand) :
    (program : Program) → program.Every onCall onOperand
  | .absent => .absent
  | .given operand => .given (operands operand)
  | .apply call =>
      .apply (calls call) fun program _ =>
        every_of_forall calls operands program
  termination_by program => sizeOf program
  decreasing_by
    have bound := sizeOf_operand_lt ‹_›
    simp
    omega

/--
What every successful call passes on from its operands to its result relates
each program to the result of its run.
-/
theorem Every.run_induction
    {onCall : Call Program → Prop}
    {onOperand : Operand → Prop}
    {relation : Program → Option Operand → Prop}
    (onAbsent : relation .absent none)
    (onGiven : ∀ operand, onOperand operand →
      relation (.given operand) (some operand))
    (onApply : ∀ call operands expression,
      onCall call →
      call.Related relation operands →
      operands.compose = .ok expression →
      relation (.apply call) (some (.expr expression)))
    {program : Program}
    (every : program.Every onCall onOperand)
    {result : Option Operand}
    (success : program.run = .ok result) :
    relation program result := by
  induction every generalizing result with
  | absent =>
      cases success
      exact onAbsent
  | given holds =>
      cases success
      exact onGiven _ holds
  | apply here below inductionHypothesis =>
      rcases run_apply_eq_ok_iff.mp success with
        ⟨operands, expression, related, composed, rfl⟩
      refine onApply _ operands expression here ?_ composed
      refine related.imp ?_
      intro operand member result success
      exact inductionHypothesis operand member success

end Program

/-! ## Atoms -/

/--
An operand of a program together with its trail: the operations of those calls
around it in which it stands under an operand other than the first that is
there.  The innermost call comes first.
-/
structure Atom where
  trail : List Operation
  operand : Operand

namespace Atom

/-- An atom that stands under a later operand of one more call. -/
def push (operation : Operation) (atom : Atom) : Atom :=
  { atom with trail := atom.trail ++ [operation] }

/-- The atoms of a call from those of its operands. -/
def gather (operation : Operation) : List (List Atom) → List Atom
  | [] => []
  | leading :: others =>
      leading ++ others.flatMap fun atoms => atoms.map (push operation)

end Atom

namespace Program

/-- The operands of a program from left to right; nothing if it is absent. -/
def atoms? : Program → Option (List Atom) :=
  fold none (fun operand => some [⟨[], operand⟩]) fun call =>
    some (Atom.gather call.operation (call.operands.filterMap id))

theorem atoms?_apply (call : Call Program) :
    (Program.apply call).atoms? =
      some
        (Atom.gather call.operation (call.operands.filterMap atoms?)) := by
  rw [atoms?, fold_apply, Call.operation_map, Call.operands_map,
    List.filterMap_map]
  rfl

/-- Every program that is there has a list of atoms. -/
theorem exists_atoms
    {program : Program} (there : program ≠ .absent) :
    ∃ atoms, program.atoms? = some atoms := by
  cases program with
  | absent => exact (there rfl).elim
  | given operand => exact ⟨_, rfl⟩
  | apply call => exact ⟨_, atoms?_apply call⟩

end Program

end CssMath
