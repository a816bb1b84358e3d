import CssMath.Proofs.Arithmetic
import CssMath.Proofs.Chain
import CssMath.Proofs.Composition
import CssMath.Proofs.Program

/-!
# Chains of atoms

A program of arithmetic operations of one kind composes a single chain, and
the members of the chain are the atoms of the program from left to right.  The
first atom stands at the front; each later one is linked to what precedes it by
an operator that its trail determines.

`Linking.OfAtoms` says this of a chain.  It is kept when chains are joined
(`Linking.OfAtoms.join`) if one more operation on the trail of an atom does to
its operator what joining does (`Linking.Fits`).  Hence the run of a call
composes a chain of its atoms if the runs of its operands do
(`Linking.Composes.run_call`), and so does every program (`Linking.Composes.runsTo`).
-/

namespace CssMath

/-! ## Linking atoms -/

/--
How atoms become the members of a chain: the operator in front of a later
atom, the member that an operand becomes, and what is known of the atom at the
front and of the later ones.
-/
structure Linking where
  operator : Atom → String
  member : Operand → Expr
  IsFirst : Atom → Prop
  IsLater : Atom → Prop

namespace Linking

/-- A chain has atoms for its members, in their order. -/
inductive OfAtoms (linking : Linking) : List Atom → Chain → Prop where
  | intro
      {leading : Atom} {others : List Atom}
      (first : linking.IsFirst leading)
      (later : ∀ atom ∈ others, linking.IsLater atom) :
      OfAtoms linking (leading :: others)
        ⟨linking.member leading.operand,
          others.map fun atom =>
            (linking.operator atom, linking.member atom.operand)⟩

/--
An atom that stands under a later operand of an operation gets the operator of
that operation if it was the first, and otherwise what is carried over.
-/
structure Fits
    (linking : Linking) (operation : Operation)
    (operator : String) (carry : String → String) : Prop where
  first (atom : Atom) (isFirst : linking.IsFirst atom) :
    linking.operator (atom.push operation) = operator ∧
      linking.IsLater (atom.push operation)
  later (atom : Atom) (isLater : linking.IsLater atom) :
    linking.operator (atom.push operation) = carry (linking.operator atom) ∧
      linking.IsLater (atom.push operation)

variable
    {linking : Linking}
    {operation : Operation}
    {operator : String}
    {carry : String → String}

/-! ## Joining -/

namespace OfAtoms

/-- Behind the operator the members are the atoms on a longer trail. -/
theorem behind
    (fits : linking.Fits operation operator carry)
    {atoms : List Atom} {chain : Chain}
    (ofAtoms : linking.OfAtoms atoms chain) :
    chain.behind operator carry =
      (atoms.map (Atom.push operation)).map fun atom =>
        (linking.operator atom, linking.member atom.operand) := by
  cases ofAtoms with
  | @intro leading others first later =>
      rw [Chain.behind, List.map_cons, List.map_cons,
        (fits.first leading first).1, List.map_map, List.map_map]
      congr 1
      apply List.map_congr_left
      intro atom member
      exact Prod.ext (fits.later atom (later atom member)).1.symm rfl

theorem later_push
    (fits : linking.Fits operation operator carry)
    {atoms : List Atom} {chain : Chain}
    (ofAtoms : linking.OfAtoms atoms chain) :
    ∀ atom ∈ atoms.map (Atom.push operation), linking.IsLater atom := by
  cases ofAtoms with
  | @intro leading others first later =>
      rw [List.forall_mem_map, List.forall_mem_cons]
      refine ⟨(fits.first leading first).2, ?_⟩
      intro atom member
      exact (fits.later atom (later atom member)).2

/-- The later chains behind the operator, one after the other. -/
theorem flatMap_behind
    (fits : linking.Fits operation operator carry)
    {atomLists : List (List Atom)} {chains : List Chain}
    (each : List.Forall₂ linking.OfAtoms atomLists chains) :
    chains.flatMap (Chain.behind operator carry) =
        (atomLists.flatMap fun atoms =>
          atoms.map (Atom.push operation)).map (fun atom =>
            (linking.operator atom, linking.member atom.operand)) ∧
      ∀ atom ∈ atomLists.flatMap fun atoms =>
          atoms.map (Atom.push operation),
        linking.IsLater atom := by
  induction each with
  | nil => exact ⟨rfl, by simp⟩
  | cons head tail inductionHypothesis =>
      rcases inductionHypothesis with ⟨rest, laterRest⟩
      constructor
      · rw [List.flatMap_cons, List.flatMap_cons, List.map_append,
          head.behind fits, rest]
      · intro atom member
        rw [List.flatMap_cons, List.mem_append] at member
        rcases member with inHead | inTail
        · exact head.later_push fits atom inHead
        · exact laterRest atom inTail

/-- Chains of atoms are joined to a chain of the gathered atoms. -/
theorem join
    (fits : linking.Fits operation operator carry)
    {atomLists : List (List Atom)} {chains : List Chain}
    (each : List.Forall₂ linking.OfAtoms atomLists chains)
    (nonempty : atomLists ≠ []) :
    ∃ joined,
      Chain.join operator carry chains = some joined ∧
        linking.OfAtoms (Atom.gather operation atomLists) joined := by
  cases each with
  | nil => exact (nonempty rfl).elim
  | @cons atoms chain otherAtoms otherChains head tail =>
      rcases flatMap_behind fits tail with ⟨rest, laterRest⟩
      cases head with
      | @intro leading others first later =>
          refine ⟨_, rfl, ?_⟩
          rw [rest, ← List.map_append]
          refine .intro first ?_
          intro atom member
          rcases List.mem_append.mp member with inLeading | inOthers
          · exact later atom inLeading
          · exact laterRest atom inOthers

end OfAtoms

end Linking

/-! ## Running -/

namespace Program

/--
A program runs, and its result is related to its atoms, or absent if the
program is.
-/
def RunsTo (relation : List Atom → Operand → Prop) (program : Program) : Prop :=
  ∃ result,
    program.run = .ok result ∧
      Option.Rel relation program.atoms? result

/-- The operands of a call that are there run to operands that are there. -/
theorem runsTo_operands
    {relation : List Atom → Operand → Prop}
    {operands : List Program}
    (below : ∀ program ∈ operands, program.RunsTo relation)
    (there : ∃ program ∈ operands, program ≠ .absent) :
    ∃ results,
      List.Forall₂ (fun program result => program.run = .ok result)
          operands results ∧
        List.Forall₂ relation (operands.filterMap atoms?)
          (Compose.present results) ∧
        operands.filterMap atoms? ≠ [] := by
  rcases exists_forall₂ below with ⟨results, each⟩
  refine ⟨results, each.imp fun _ _ both => both.1,
    List.rel_filterMap (fun _ _ both => both.2) each, ?_⟩
  rcases there with ⟨program, member, isThere⟩
  rcases exists_atoms isThere with ⟨atoms, equal⟩
  exact List.ne_nil_of_mem
    (List.mem_filterMap.mpr ⟨program, member, equal⟩)

end Program

namespace Linking

/-- The members of a chain that an operand is taken apart into are the atoms. -/
def OfOperand
    (linking : Linking) (level : Kind)
    (atoms : List Atom) (operand : Operand) : Prop :=
  linking.OfAtoms atoms (operand.asMember.chainAt level)

/--
What makes programs compose chains of their atoms: their calls are of
operations that the linking fits, an operand by itself is an atom, and a chain
of atoms is read again once it has been composed.
-/
structure Composes
    (linking : Linking) (level : Kind)
    (onCall : Call Program → Prop) (onOperand : Operand → Prop) : Prop where
  call (call : Call Program) (holds : onCall call) :
    ∃ (operation : Arithmetic) (operands : List Program),
      call = .arithmetic operation operands ∧
        operation.level = level ∧
        linking.Fits operation.operation operation.operator operation.carry ∧
        ∃ program ∈ operands, program ≠ .absent
  atom (operand : Operand) (holds : onOperand operand) :
    linking.OfOperand level [⟨[], operand⟩] operand
  chain (atoms : List Atom) (chain : Chain)
      (ofAtoms : linking.OfAtoms atoms chain) :
    linking.OfOperand level atoms (.expr (.calc (.ofChain level chain)))

namespace Composes

variable
    {linking : Linking}
    {level : Kind}
    {onCall : Call Program → Prop}
    {onOperand : Operand → Prop}

/--
A call of operands that run to chains of atoms runs to what is composed of a
chain of its own atoms.
-/
theorem run_call
    (composes : linking.Composes level onCall onOperand)
    {call : Call Program} (holds : onCall call)
    (below : ∀ program ∈ call.operands,
      program.RunsTo (linking.OfOperand level)) :
    ∃ atoms chain,
      (Program.apply call).atoms? = some atoms ∧
        linking.OfAtoms atoms chain ∧
        (Program.apply call).run =
          .ok (some (.expr (.calc (.ofChain level chain)))) := by
  rcases composes.call call holds with
    ⟨operation, operands, rfl, rfl, fits, there⟩
  rcases Program.runsTo_operands below there with
    ⟨results, ran, ofAtoms, nonempty⟩
  rcases OfAtoms.join fits (List.forall₂_map_right_iff.mpr ofAtoms) nonempty
    with ⟨joined, joins, gathered⟩
  refine ⟨_, joined, Program.atoms?_apply _, gathered, ?_⟩
  exact Program.run_apply_eq_ok_iff.mpr
    ⟨.arithmetic operation results, _, .arithmetic operation ran,
      Arithmetic.compose_eq_ok_iff.mpr ⟨joined, joins, rfl⟩, rfl⟩

/-- Every program of such calls runs to a chain of its atoms. -/
theorem runsTo
    (composes : linking.Composes level onCall onOperand)
    {program : Program} (every : program.Every onCall onOperand) :
    program.RunsTo (linking.OfOperand level) := by
  induction every with
  | absent => exact ⟨none, rfl, .none⟩
  | given holds => exact ⟨_, rfl, .some (composes.atom _ holds)⟩
  | apply here below inductionHypothesis =>
      rcases composes.run_call here inductionHypothesis with
        ⟨atoms, chain, isAtoms, ofAtoms, success⟩
      refine ⟨_, success, ?_⟩
      rw [isAtoms]
      exact .some (composes.chain atoms chain ofAtoms)

/-- A program that is a call composes the calculation of the chain of its atoms. -/
theorem run_apply
    (composes : linking.Composes level onCall onOperand)
    {call : Call Program}
    (every : (Program.apply call).Every onCall onOperand) :
    ∃ leading others,
      (Program.apply call).atoms? = some (leading :: others) ∧
        (∀ atom ∈ others, linking.IsLater atom) ∧
        (Program.apply call).run =
          .ok (some (.expr (.calc (.ofChain level
            ⟨linking.member leading.operand,
              others.map fun atom =>
                (linking.operator atom, linking.member atom.operand)⟩)))) := by
  cases every with
  | apply here below =>
      rcases composes.run_call here fun program member =>
            composes.runsTo (below program member) with
        ⟨atoms, chain, isAtoms, ofAtoms, success⟩
      cases ofAtoms with
      | intro first later => exact ⟨_, _, isAtoms, later, success⟩

end Composes

end Linking

end CssMath
