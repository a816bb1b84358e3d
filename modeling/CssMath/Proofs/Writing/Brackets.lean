import CssMath.Proofs.Cutting
import CssMath.Proofs.Writing.Text

/-!
# Brackets and separators

A text is enclosed with respect to some separators if its brackets are paired
and every separator in it stands between brackets.  Where an enclosed text
ends is decided by what follows it: a separator or a closing bracket cannot be
part of it any more (`openAfter_cut`).

So a list of enclosed texts can be recovered from the text in which marks link
them (`Linkable.eq_of_linked`), and the arguments of a function from the text
of the function (`eq_of_applied`).
-/

namespace CssMath

/-! ## Open brackets -/

/--
How many brackets are open behind a character, of those open in front of it.
There is no answer if it closes a bracket that was not opened, or separates
outside of all brackets.
-/
def openBehind
    (separators : List Char) (depth : Nat) (character : Char) : Option Nat :=
  if character = '(' then
    some (depth + 1)
  else if character = ')' then
    if depth = 0 then none else some (depth - 1)
  else if depth = 0 ∧ character ∈ separators then
    none
  else
    some depth

/-- How many brackets are open behind a text. -/
def openAfter
    (separators : List Char) (depth : Nat) (text : List Char) : Option Nat :=
  text.foldlM (openBehind separators) depth

/-- The brackets of a text are paired, and separators stand between brackets. -/
def Enclosed (separators : List Char) (text : String) : Prop :=
  openAfter separators 0 text.toList = some 0

/-- A character that is neither a bracket nor a separator. -/
def IsInner (separators : List Char) (character : Char) : Prop :=
  character ≠ '(' ∧ character ≠ ')' ∧ character ∉ separators

/-- Such a character as a text cannot go on with outside of brackets. -/
def IsBorder (separators : List Char) (character : Char) : Prop :=
  openBehind separators 0 character = none

variable {separators : List Char}

theorem isBorder_of_mem
    {character : Char}
    (notOpening : character ≠ '(')
    (member : character ∈ separators) :
    IsBorder separators character := by
  by_cases closing : character = ')' <;>
    simp [IsBorder, openBehind, notOpening, closing, member]

theorem openBehind_of_isInner
    {character : Char} (inner : IsInner separators character) (depth : Nat) :
    openBehind separators depth character = some depth := by
  rcases inner with ⟨notOpening, notClosing, notSeparator⟩
  simp [openBehind, notOpening, notClosing, notSeparator]

/-- Behind one more open bracket nothing separates. -/
theorem openBehind_succ
    {separators' : List Char} {character : Char} {depth result : Nat}
    (stays : openBehind separators depth character = some result) :
    openBehind separators' (depth + 1) character = some (result + 1) := by
  unfold openBehind at stays ⊢
  split_ifs at stays ⊢ <;> simp_all
  omega

/-- With fewer separators, less is forbidden. -/
theorem openBehind_mono
    {separators' : List Char} {character : Char} {depth result : Nat}
    (fewer : separators' ⊆ separators)
    (stays : openBehind separators depth character = some result) :
    openBehind separators' depth character = some result := by
  unfold openBehind at stays ⊢
  by_cases separates : depth = 0 ∧ character ∈ separators
  · split_ifs at stays ⊢ <;> simp_all
  · have notBoth : ¬ (depth = 0 ∧ character ∈ separators') := fun both =>
      separates ⟨both.1, fewer both.2⟩
    simpa only [if_neg separates, if_neg notBoth] using stays

theorem openAfter_append
    (depth : Nat) (left right : List Char) :
    openAfter separators depth (left ++ right) =
      (openAfter separators depth left).bind fun depth' =>
        openAfter separators depth' right := by
  exact List.foldlM_append

theorem openAfter_cons
    (depth : Nat) (character : Char) (rest : List Char) :
    openAfter separators depth (character :: rest) =
      (openBehind separators depth character).bind fun depth' =>
        openAfter separators depth' rest := by
  exact List.foldlM_cons

theorem openAfter_succ
    {separators' : List Char} {text : List Char} {depth result : Nat}
    (stays : openAfter separators depth text = some result) :
    openAfter separators' (depth + 1) text = some (result + 1) := by
  induction text generalizing depth with
  | nil =>
      cases stays
      rfl
  | cons character rest inductionHypothesis =>
      rw [openAfter_cons, Option.bind_eq_some_iff] at stays ⊢
      rcases stays with ⟨middle, first, stays⟩
      exact ⟨middle + 1, openBehind_succ first, inductionHypothesis stays⟩

theorem openAfter_mono
    {separators' text : List Char} {depth result : Nat}
    (fewer : separators' ⊆ separators)
    (stays : openAfter separators depth text = some result) :
    openAfter separators' depth text = some result := by
  induction text generalizing depth with
  | nil => exact stays
  | cons character rest inductionHypothesis =>
      rw [openAfter_cons, Option.bind_eq_some_iff] at stays ⊢
      rcases stays with ⟨middle, first, stays⟩
      exact ⟨middle, openBehind_mono fewer first, inductionHypothesis stays⟩

/-! ## Enclosed texts -/

namespace Enclosed

theorem append
    {left right : String}
    (first : Enclosed separators left)
    (second : Enclosed separators right) :
    Enclosed separators (left ++ right) := by
  rw [Enclosed, String.toList_append, openAfter_append, first]
  exact second

theorem ofInner
    {text : String}
    (inner : ∀ character ∈ text.toList, IsInner separators character) :
    Enclosed separators text := by
  unfold Enclosed
  generalize text.toList = characters at inner ⊢
  induction characters with
  | nil => rfl
  | cons character rest inductionHypothesis =>
      rw [List.forall_mem_cons] at inner
      rw [openAfter_cons, openBehind_of_isInner inner.1]
      exact inductionHypothesis inner.2

/-- In brackets, a text is enclosed with respect to any separators. -/
theorem brackets
    {separators' : List Char} {text : String}
    (enclosed : Enclosed separators text) :
    Enclosed separators' ("(" ++ text ++ ")") := by
  have inside : openAfter separators' 1 text.toList = some 1 :=
    openAfter_succ enclosed
  have opened : openBehind separators' 0 '(' = some 1 := rfl
  have closed : openBehind separators' 1 ')' = some 0 := rfl
  simp [Enclosed, openAfter_cons, openAfter_append, opened, inside, closed]
  rfl

/-- A text that is enclosed stays so with fewer separators. -/
theorem mono
    {separators' : List Char} {text : String}
    (enclosed : Enclosed separators text)
    (fewer : separators' ⊆ separators) :
    Enclosed separators' text :=
  openAfter_mono fewer enclosed

end Enclosed

/-! ## Where a text ends -/

/-- A text that is empty or starts at a border. -/
def StartsAtBorder (separators : List Char) (text : List Char) : Prop :=
  ∀ character ∈ text.head?, IsBorder separators character

/--
Two texts that close all open brackets, each with something at a border behind
it, are equal if they are equal together with what is behind them.
-/
theorem openAfter_cut
    {left left' right right' : List Char} {depth : Nat}
    (closes : openAfter separators depth left = some 0)
    (closes' : openAfter separators depth left' = some 0)
    (border : StartsAtBorder separators right)
    (border' : StartsAtBorder separators right')
    (equal : left ++ right = left' ++ right') :
    left = left' ∧ right = right' := by
  induction left generalizing left' depth with
  | nil =>
      cases left' with
      | nil => exact ⟨rfl, equal⟩
      | cons character rest =>
          cases closes
          rw [List.nil_append] at equal
          have atBorder := border character (by simp [equal])
          rw [openAfter_cons, atBorder] at closes'
          cases closes'
  | cons character rest inductionHypothesis =>
      cases left' with
      | nil =>
          cases closes'
          rw [List.nil_append] at equal
          have atBorder := border' character (by simp [← equal])
          rw [openAfter_cons, atBorder] at closes
          cases closes
      | cons character' rest' =>
          rw [List.cons_append, List.cons_append, List.cons.injEq] at equal
          rcases equal with ⟨rfl, equal⟩
          rw [openAfter_cons, Option.bind_eq_some_iff] at closes closes'
          rcases closes with ⟨middle, first, closes⟩
          rcases closes' with ⟨middle', first', closes'⟩
          rw [first, Option.some.injEq] at first'
          subst middle'
          rcases inductionHypothesis closes closes' equal with ⟨rfl, rfl⟩
          exact ⟨rfl, rfl⟩

/-! ## Linked texts -/

/-- A mark of a certain length that starts at a border. -/
def IsMark (separators : List Char) (width : Nat) (mark : String) : Prop :=
  mark.toList.length = width ∧
    ∃ character rest,
      mark.toList = character :: rest ∧ IsBorder separators character

/-- Texts that are enclosed, and marks of one length between them. -/
structure Linkable
    (separators : List Char) (width : Nat)
    (first : String) (rest : List (String × String)) : Prop where
  first : Enclosed separators first
  rest : ∀ step ∈ rest,
    IsMark separators width step.1 ∧ Enclosed separators step.2

/-- What is linked behind a first text. -/
def linksBehind (rest : List (String × String)) : List Char :=
  rest.flatMap fun step => step.1.toList ++ step.2.toList

theorem toList_linked (first : String) (rest : List (String × String)) :
    (linked first rest).toList = first.toList ++ linksBehind rest := by
  simp [linked, linksBehind, List.flatMap_map]

theorem startsAtBorder_linksBehind
    {width : Nat} {rest : List (String × String)}
    (marks : ∀ step ∈ rest,
      IsMark separators width step.1 ∧ Enclosed separators step.2) :
    StartsAtBorder separators (linksBehind rest) := by
  cases rest with
  | nil => simp [StartsAtBorder, linksBehind]
  | cons step rest =>
      rcases (marks step (by simp)).1.2 with
        ⟨character, others, spelled, border⟩
      simpa [StartsAtBorder, linksBehind, spelled] using border

theorem linksBehind_injective
    {width : Nat} {rest rest' : List (String × String)}
    (marks : ∀ step ∈ rest,
      IsMark separators width step.1 ∧ Enclosed separators step.2)
    (marks' : ∀ step ∈ rest',
      IsMark separators width step.1 ∧ Enclosed separators step.2)
    (equal : linksBehind rest = linksBehind rest') :
    rest = rest' := by
  induction rest generalizing rest' with
  | nil =>
      cases rest' with
      | nil => rfl
      | cons step' rest' =>
          rcases (marks' step' (by simp)).1.2 with
            ⟨character, others, spelled, _⟩
          simp [linksBehind, spelled] at equal
  | cons step rest inductionHypothesis =>
      cases rest' with
      | nil =>
          rcases (marks step (by simp)).1.2 with
            ⟨character, others, spelled, _⟩
          simp [linksBehind, spelled] at equal
      | cons step' rest' =>
          rw [List.forall_mem_cons] at marks marks'
          rcases marks with ⟨⟨mark, enclosed⟩, marks⟩
          rcases marks' with ⟨⟨mark', enclosed'⟩, marks'⟩
          simp only [linksBehind, List.flatMap_cons, List.append_assoc]
            at equal
          have sameLength : step.1.toList.length = step'.1.toList.length :=
            mark.1.trans mark'.1.symm
          rcases List.append_inj equal sameLength with ⟨sameMark, behind⟩
          rcases openAfter_cut enclosed enclosed'
              (startsAtBorder_linksBehind marks)
              (startsAtBorder_linksBehind marks') behind with
            ⟨sameText, equalRest⟩
          have sameStep : step = step' :=
            Prod.ext (String.toList_inj.mp sameMark)
              (String.toList_inj.mp sameText)
          rw [sameStep, inductionHypothesis marks marks' equalRest]

/-- Linked texts can be recovered, and so can the marks between them. -/
theorem Linkable.eq_of_linked
    {width : Nat} {first first' : String}
    {rest rest' : List (String × String)}
    (linkable : Linkable separators width first rest)
    (linkable' : Linkable separators width first' rest')
    (equal : linked first rest = linked first' rest') :
    first = first' ∧ rest = rest' := by
  have characters := congrArg String.toList equal
  rw [toList_linked, toList_linked] at characters
  rcases openAfter_cut linkable.first linkable'.first
      (startsAtBorder_linksBehind linkable.rest)
      (startsAtBorder_linksBehind linkable'.rest) characters with
    ⟨sameFirst, equalRest⟩
  exact
    ⟨String.toList_inj.mp sameFirst,
      linksBehind_injective linkable.rest linkable'.rest equalRest⟩

/-- Linking enclosed texts by marks that separate nothing encloses them. -/
theorem Enclosed.linked
    {first : String} {rest : List (String × String)}
    (onFirst : Enclosed separators first)
    (onRest : ∀ step ∈ rest,
      Enclosed separators step.1 ∧ Enclosed separators step.2) :
    Enclosed separators (linked first rest) := by
  unfold CssMath.linked
  refine onFirst.append ?_
  induction rest with
  | nil => rfl
  | cons step rest inductionHypothesis =>
      rw [List.forall_mem_cons] at onRest
      rw [List.map_cons, String.join_cons]
      exact
        (onRest.1.1.append onRest.1.2).append
          (inductionHypothesis onRest.2)

/-! ## Arguments in brackets -/

theorem isMark_comma : IsMark [','] 1 "," :=
  ⟨rfl, ',', [], rfl, isBorder_of_mem (by decide) (by decide)⟩

theorem linkable_arguments
    {first : String} {others : List String}
    (enclosed : ∀ argument ∈ first :: others, Enclosed [','] argument) :
    Linkable [','] 1 first (others.map fun argument => (",", argument)) := by
  rw [List.forall_mem_cons] at enclosed
  refine ⟨enclosed.1, ?_⟩
  rw [List.forall_mem_map]
  intro argument member
  exact ⟨isMark_comma, enclosed.2 argument member⟩

theorem intercalate_comma_injective
    {arguments arguments' : List String}
    (nonempty : arguments ≠ [])
    (nonempty' : arguments' ≠ [])
    (enclosed : ∀ argument ∈ arguments, Enclosed [','] argument)
    (enclosed' : ∀ argument ∈ arguments', Enclosed [','] argument)
    (equal : ",".intercalate arguments = ",".intercalate arguments') :
    arguments = arguments' := by
  rcases List.exists_cons_of_ne_nil nonempty with ⟨first, others, rfl⟩
  rcases List.exists_cons_of_ne_nil nonempty' with ⟨first', others', rfl⟩
  rw [intercalate_cons_eq_linked, intercalate_cons_eq_linked] at equal
  rcases (linkable_arguments enclosed).eq_of_linked
      (linkable_arguments enclosed') equal with
    ⟨rfl, sameRest⟩
  have sameOthers := congrArg (List.map Prod.snd) sameRest
  simp only [List.map_map, Function.comp_def, List.map_id'] at sameOthers
  rw [sameOthers]

/-- The first opening bracket of a text is at one place only. -/
theorem eq_of_firstBracket
    {left left' right right' : List Char}
    (noBracket : '(' ∉ left)
    (noBracket' : '(' ∉ left')
    (equal : left ++ '(' :: right = left' ++ '(' :: right') :
    left = left' ∧ right = right' := by
  have outside {before : List Char} (none : '(' ∉ before) :
      ∀ character ∈ before, (character != '(') = true := by
    intro character member
    rw [bne_iff_ne]
    rintro rfl
    exact none member
  rcases append_inj_of_stop (fun character => character != '(')
      (outside noBracket) (outside noBracket') (by simp) (by simp) equal with
    ⟨sameFront, sameRest⟩
  exact ⟨sameFront, (List.cons.inj sameRest).2⟩

/-- The name and the arguments of a function can be recovered from its text. -/
theorem eq_of_applied
    {name name' : String} {arguments arguments' : List String}
    (noBracket : '(' ∉ name.toList)
    (noBracket' : '(' ∉ name'.toList)
    (nonempty : arguments ≠ [])
    (nonempty' : arguments' ≠ [])
    (enclosed : ∀ argument ∈ arguments, Enclosed [','] argument)
    (enclosed' : ∀ argument ∈ arguments', Enclosed [','] argument)
    (equal : applied name arguments = applied name' arguments') :
    name = name' ∧ arguments = arguments' := by
  have characters := congrArg String.toList equal
  simp only [applied, String.toList_append, String.reduceToList,
    List.append_assoc, List.cons_append, List.nil_append] at characters
  rcases eq_of_firstBracket noBracket noBracket' characters with
    ⟨sameName, inside⟩
  have sameArguments := List.append_cancel_right inside
  exact
    ⟨String.toList_inj.mp sameName,
      intercalate_comma_injective nonempty nonempty' enclosed enclosed'
        (String.toList_inj.mp sameArguments)⟩

/-- A function is enclosed with its arguments if its name holds no separator. -/
theorem enclosed_applied
    {name : String} {arguments : List String}
    (inner : ∀ character ∈ name.toList, IsInner separators character)
    (nonempty : arguments ≠ [])
    (enclosed : ∀ argument ∈ arguments, Enclosed [','] argument) :
    Enclosed separators (applied name arguments) := by
  have between : Enclosed [] (",".intercalate arguments) := by
    rcases List.exists_cons_of_ne_nil nonempty with ⟨first, others, rfl⟩
    rw [intercalate_cons_eq_linked]
    rw [List.forall_mem_cons] at enclosed
    refine Enclosed.linked (enclosed.1.mono (by simp)) ?_
    rw [List.forall_mem_map]
    intro argument member
    have comma : Enclosed [] "," := rfl
    exact ⟨comma, (enclosed.2 argument member).mono (by simp)⟩
  have bracketed := (Enclosed.ofInner inner).append between.brackets
  simpa only [applied, String.append_assoc] using bracketed

end CssMath
