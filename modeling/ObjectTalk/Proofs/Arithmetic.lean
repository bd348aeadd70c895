import ObjectTalk.Proofs.Allocation
import ObjectTalk.Proofs.Binding
/-!
# `Proofs.Arithmetic` — programs that calculate

An arithmetic expression is made of integer literals and of messages `+`, `-` and `*` with one argument. `Arithmetic`
says what it comes to in exact integers, and lists the results of its operations in the order in which they are carried
out. The machine calculates with 64 bits and stops at the first result that does not fit. Until then all of its results
are exact, since each is calculated from exact ones (`Arithmetic.answers_node`).

The operands of a message are evaluated before the message is sent, so that no frame is on the stack while another
message is evaluated: room for one frame is enough, however high the expression is.
-/

namespace ObjectTalk

/-! ## Expressions and their exact values -/

namespace Arithmetic

/-- An operation on integers, each a `Builtin` of theirs. -/
inductive Op where
  | add
  | subtract
  | multiply
deriving DecidableEq, Repr

/-- The name of the message for an `Op`. -/
def Op.symbol : Op → String
  | add => "+"
  | subtract => "-"
  | multiply => "*"

/-- The `Op` on exact integers. -/
def Op.apply : Op → Int → Int → Int
  | add => (· + ·)
  | subtract => (· - ·)
  | multiply => (· * ·)

/-- The `Builtin` that the message for the `Op` finds. -/
def Op.action : Op → Builtin
  | add => .add
  | subtract => .subtract
  | multiply => .multiply

/-- An arithmetic expression: literals and `Op`s. -/
inductive Expr where
  | literal (value : Int64)
  | operation (op : Op) (left right : Expr)

namespace Expr

/-- The expression as a `Node`: an operation is a message to the left operand. -/
def node : Expr → Node
  | literal value => .integerLit value
  | operation op left right => .send (some left.node) op.symbol [right.node]

/-- The exact value, as an `Int`. -/
def exact : Expr → Int
  | literal value => value.toInt
  | operation op left right => op.apply left.exact right.exact

/-- The operations with their `exact` results: those of the left operand, those of the right one, then the last. -/
def results : Expr → List (Op × Int)
  | literal _ => []
  | operation op left right => left.results ++ right.results ++ [(op, op.apply left.exact right.exact)]

end Expr

/-- The number is one that an `Int64` can hold. -/
def Fits (number : Int) : Prop :=
  Int64.minValue.toInt ≤ number ∧ number ≤ Int64.maxValue.toInt

instance : DecidablePred Fits := fun number =>
  inferInstanceAs (Decidable (Int64.minValue.toInt ≤ number ∧ number ≤ Int64.maxValue.toInt))

/-- The first of the `results` that does not fit. -/
def Expr.overflow? (expr : Expr) : Option (Op × Int) :=
  expr.results.find? fun result => ¬ Fits result.2

namespace Expr

variable {op : Op} {left right : Expr} {found : Op × Int}

theorem overflow?_eq_none_iff {expr : Expr} : expr.overflow? = none ↔ ∀ result ∈ expr.results, Fits result.2 := by
  simp [overflow?, List.find?_eq_none]

theorem overflow?_of_left (h : left.overflow? = some found) : (operation op left right).overflow? = some found := by
  unfold overflow? at h ⊢
  rw [results, List.find?_append, List.find?_append, h]
  rfl

theorem overflow?_of_right (hleft : left.overflow? = none) (h : right.overflow? = some found) :
    (operation op left right).overflow? = some found := by
  unfold overflow? at hleft h ⊢
  rw [results, List.find?_append, List.find?_append, hleft, h]
  rfl

/-- Where no operand has an `overflow?`, it is up to the last operation. -/
theorem overflow?_of_operands (hleft : left.overflow? = none) (hright : right.overflow? = none) :
    (operation op left right).overflow?
      = if Fits (op.apply left.exact right.exact) then none else some (op, op.apply left.exact right.exact) := by
  unfold overflow? at hleft hright ⊢
  rw [results, List.find?_append, List.find?_append, hleft, hright]
  by_cases hfits : Fits (op.apply left.exact right.exact)
  · simp [hfits]
  · simp [hfits]

end Expr

/-! ## Single operations -/

theorem toInt_ofInt_of_fits {number : Int} (h : Fits number) : (Int64.ofInt number).toInt = number :=
  Int64.toInt_ofInt_of_le h.1 (Int.lt_of_le_of_lt h.2 (by decide))

/-- `fitInteger` succeeds on a number that `Fits`. -/
theorem fitInteger_of_fits (operation : String) {number : Int} (h : Fits number) :
    fitInteger operation number = pure (Int64.ofInt number) :=
  if_pos h

theorem fitInteger_of_not_fits (operation : String) {number : Int} (h : ¬ Fits number) :
    fitInteger operation number = throw (.outOfRange operation) :=
  if_neg h

/-- `Hierarchy.initial` has the built-in method of each `Op`. -/
theorem own?_initial (op : Op) :
    Hierarchy.initial.own? ClassId.integer op.symbol = some (.builtin op.symbol (.exactly 1) op.action) := by
  cases op <;> rfl

/-- **`Builtin.applyWith` gives the exact result if it `Fits`**, and otherwise says which operation it was. -/
theorem applyWith_action (op : Op) (call : Caller) {receiver arg : Value} {left right : Int64} {machine : Machine}
    (hleft : machine.heap.payload? receiver = some (.number left))
    (hright : machine.heap.payload? arg = some (.number right)) :
    op.action.applyWith call receiver [arg] machine
      = if Fits (op.apply left.toInt right.toInt) then
          .ok (.object machine.heap.size) { machine with
            heap := machine.heap.push ((NewObject.integer (.ofInt (op.apply left.toInt right.toInt))).object machine) }
        else .error (.outOfRange op.symbol) machine := by
  have hhandler : op.action.handler = .onNumber (arithmetic op.symbol op.apply) := by
    cases op <;> rfl
  have harg : onlyArg op.symbol [arg] machine = .ok arg machine := rfl
  rw [Builtin.applyWith, hhandler, Handler.applyWith, Run.bind_apply, Run.numberOf_of_payload? hleft]
  simp only [arithmetic]
  rw [Run.bind_apply, harg]
  simp only
  rw [Run.bind_apply, Run.numberOf_of_payload? hright]
  simp only
  by_cases hfits : Fits (op.apply left.toInt right.toInt)
  · rw [if_pos hfits, fitInteger_of_fits op.symbol hfits]
    rfl
  · rw [if_neg hfits, fitInteger_of_not_fits op.symbol hfits]
    rfl

end Arithmetic

/-! ## Machines that calculate -/

/-- There is room for a frame and `room` more, and the class of integers still has its three operations. -/
structure Machine.Calculates (room : Nat) (machine : Machine) : Prop where
  room : machine.room = room + 1
  retains : ∀ op : Arithmetic.Op, machine.classes.Retains ClassId.integer op.symbol

namespace Arithmetic

/-- The expression has been evaluated as exact arithmetic says, and one only `Allocates`: the value is a `NewInteger`
    with the exact value, if nothing has an `overflow?`; otherwise the fault names the first operation that has. -/
def Expr.Answers (expr : Expr) (machine : Machine) : Outcome Value → Prop
  | .ok value last =>
    machine.Allocates last ∧ expr.overflow? = none
      ∧ ∃ number, machine.NewInteger last value number ∧ number.toInt = expr.exact
  | .error fault last =>
    machine.Allocates last ∧ ∃ found, expr.overflow? = some found ∧ fault = .outOfRange found.1.symbol

variable {room : Nat} {machine middle last : Machine}

/-- A machine that `Calculates` does so after what only `Allocates`. -/
theorem calculates_of_allocates (h : machine.Calculates room) (hlast : machine.Allocates last) :
    last.Calculates room := by
  refine ⟨hlast.room_eq.trans h.room, ?_⟩
  rw [hlast.classes]
  exact h.retains

/-- What was allocated before the evaluation may be counted with it in `Expr.Answers`. -/
theorem Expr.Answers.since {expr : Expr} {outcome : Outcome Value} (h : expr.Answers middle outcome)
    (hmiddle : machine.Allocates middle) : expr.Answers machine outcome := by
  cases outcome with
  | ok value last =>
      obtain ⟨hlast, hnone, number, hnew, hexact⟩ := h
      exact ⟨hmiddle.trans hlast, hnone, number, hnew.since hmiddle, hexact⟩
  | error fault last => exact ⟨hmiddle.trans h.1, h.2⟩

/-- **The message for an `Op` answers as the expression does**, when its operands have been evaluated. -/
theorem answers_send (h : machine.Calculates room) {op : Op} {left right : Expr} {receiver arg : Value}
    {before before' : Machine} {first second : Int64} (hleft : left.overflow? = none)
    (hright : right.overflow? = none) (hfirst : before.NewInteger machine receiver first)
    (hsecond : before'.NewInteger machine arg second) (hexact : first.toInt = left.exact)
    (hexact' : second.toInt = right.exact) :
    (Expr.operation op left right).Answers machine
      (sendWith (callWithin (room + 1)) receiver op.symbol [arg] machine) := by
  have hroom : machine.stack.depth < machine.settings.maxDepth := by
    have hsucc := h.room
    unfold Machine.room at hsucc
    omega
  have harity : (Arity.exactly 1).admits [arg].length := rfl
  have hsend := Machine.send_of_retains hfirst.classOf? (h.retains op) (own?_initial op) harity hroom
  have hleft' : ((machine.log (.entered op.symbol)).pushed receiver).heap.payload? receiver = some (.number first) :=
    hfirst.payload?
  rw [applyWith_action op _ hleft' hsecond.payload?, hexact, hexact'] at hsend
  rw [Machine.send, h.room] at hsend
  rw [hsend]
  have hlast : (Expr.operation op left right).overflow? = _ := Expr.overflow?_of_operands hleft hright
  by_cases hfits : Fits (op.apply left.exact right.exact)
  · rw [if_pos hfits] at hlast ⊢
    refine ⟨(Machine.allocates_push _ _).called, hlast, _, ?_, toInt_ofInt_of_fits hfits⟩
    exact Machine.newInteger_push _ _
  · rw [if_neg hfits] at hlast ⊢
    exact ⟨(Machine.Allocates.refl _).called, _, hlast, rfl⟩

/-- **`evalWith` answers as exact arithmetic does** (`Expr.Answers`). By induction on the expression: the left
    operand is evaluated first, then the right one, then the message is sent; the first of the three that fails ends
    it. -/
theorem answers_node : (expr : Expr) → {machine : Machine} → machine.Calculates room →
    expr.Answers machine (evalWith (callWithin (room + 1)) expr.node machine)
  | .literal value, machine, h => by
      rw [Expr.node, evalWith, Run.bind_apply, Machine.traceNode_apply]
      have htraced := Machine.allocates_traced (Node.integerLit value).kind machine
      exact ⟨htraced.trans (Machine.allocates_push _ _), rfl, value, (Machine.newInteger_push _ value).since htraced,
        rfl⟩
  | .operation op left right, machine, h => by
      rw [Expr.node, evalWith, Run.bind_apply, Machine.traceNode_apply]
      have htraced := Machine.allocates_traced (Node.send (some left.node) op.symbol [right.node]).kind machine
      have hstart := calculates_of_allocates h htraced
      refine Expr.Answers.since ?_ htraced
      have hleft := answers_node left hstart
      simp only
      rw [Run.bind_apply, evalReceiver]
      generalize evalWith _ left.node _ = outcome at hleft ⊢
      cases outcome with
      | error fault last =>
          obtain ⟨hlast, found, hfound, hfault⟩ := hleft
          exact ⟨hlast, found, Expr.overflow?_of_left hfound, hfault⟩
      | ok receiver middle =>
          obtain ⟨hmiddle, hnone, first, hfirst, hexact⟩ := hleft
          have hright := answers_node right (calculates_of_allocates hstart hmiddle)
          simp only
          refine Expr.Answers.since ?_ hmiddle
          rw [Run.bind_apply, evalAll, Run.bind_apply]
          generalize evalWith _ right.node _ = outcome at hright ⊢
          cases outcome with
          | error fault last =>
              obtain ⟨hlast, found, hfound, hfault⟩ := hright
              exact ⟨hlast, found, Expr.overflow?_of_right hnone hfound, hfault⟩
          | ok arg last =>
              obtain ⟨hlast, hnone', second, hsecond, hexact'⟩ := hright
              have hready := calculates_of_allocates (calculates_of_allocates hstart hmiddle) hlast
              refine Expr.Answers.since ?_ hlast
              exact answers_send hready hnone hnone' (hfirst.allocates hlast) hsecond hexact hexact'

end Arithmetic

namespace Machine

/-- **Arithmetic programs calculate exactly or report the first overflow.** With room for a frame, where integers
    still have their own operations: if all `results` fit 64 bits, `eval` gives a `NewInteger` with the `exact`
    value; otherwise it fails with the first operation, left operand first, whose result does not. One only
    `Allocates`. -/
theorem arithmetic_is_exact_up_to_first_overflow (machine : Machine) (expr : Arithmetic.Expr)
    (hroom : machine.stack.depth < machine.settings.maxDepth)
    (hretains : ∀ op : Arithmetic.Op, machine.classes.Retains ClassId.integer op.symbol) :
    ((∀ result ∈ expr.results, Arithmetic.Fits result.2) →
      ∃ value number last, eval expr.node machine = .ok value last ∧ machine.NewInteger last value number
        ∧ number.toInt = expr.exact ∧ machine.Allocates last) ∧
    (∀ op number, expr.results.find? (fun result => ¬ Arithmetic.Fits result.2) = some (op, number) →
      ∃ last, eval expr.node machine = .error (.outOfRange op.symbol) last ∧ machine.Allocates last) := by
  have hcalculates : machine.Calculates (machine.settings.maxDepth - (machine.stack.depth + 1)) :=
    ⟨room_eq_succ hroom, hretains⟩
  have hanswers := Arithmetic.answers_node expr hcalculates
  rw [← hcalculates.room] at hanswers
  change expr.Answers machine (eval expr.node machine) at hanswers
  refine ⟨?_, ?_⟩
  · intro hfits
    have hnone := Arithmetic.Expr.overflow?_eq_none_iff.mpr hfits
    cases houtcome : eval expr.node machine with
    | ok value last =>
        rw [houtcome] at hanswers
        obtain ⟨hlast, _, number, hnew, hexact⟩ := hanswers
        exact ⟨value, number, last, rfl, hnew, hexact, hlast⟩
    | error fault last =>
        rw [houtcome] at hanswers
        obtain ⟨_, found, hfound, _⟩ := hanswers
        rw [hnone] at hfound
        cases hfound
  · intro op number hfind
    cases houtcome : eval expr.node machine with
    | ok value last =>
        rw [houtcome] at hanswers
        have hnone := hfind.symm.trans hanswers.2.1
        cases hnone
    | error fault last =>
        rw [houtcome] at hanswers
        obtain ⟨hlast, found, hfound, rfl⟩ := hanswers
        have heq := hfind.symm.trans hfound
        cases heq
        exact ⟨last, rfl, hlast⟩

end Machine

/-- The greatest `Int64`, and then the least one; both can be held. -/
def Arithmetic.extremes : Arithmetic.Expr :=
  .operation .subtract (.operation .add (.literal Int64.maxValue) (.literal Int64.minValue)) (.literal Int64.maxValue)

/-- The `exact` value could be held, but not the number that is multiplied by zero. -/
def Arithmetic.excessive : Arithmetic.Expr :=
  .operation .add (.literal 1)
    (.operation .multiply (.operation .subtract (.literal Int64.minValue) (.literal 1)) (.literal 0))

namespace Machine

/-- A new machine with room for one frame, after a program that redefines `to_s` for integers. -/
def integersShownAsN : Machine :=
  (run (.classDef none "Integer" none (.methodDef "to_s" {} (.stringLit "n")))).after
    (boot { maxDepth := 2 } (.kept ""))

theorem arithmetic_is_exact_up_to_first_overflow_extremes :
    (integersShownAsN.stack.depth < integersShownAsN.settings.maxDepth
      ∧ (∀ op : Arithmetic.Op, integersShownAsN.classes.Retains ClassId.integer op.symbol)
      ∧ (∀ result ∈ Arithmetic.extremes.results, Arithmetic.Fits result.2)
      ∧ Arithmetic.excessive.results.find? (fun result => ¬ Arithmetic.Fits result.2)
        = some (.subtract, -9223372036854775809))
    ∧ (∃ value number last, eval Arithmetic.extremes.node integersShownAsN = .ok value last
      ∧ integersShownAsN.NewInteger last value number ∧ number.toInt = Arithmetic.extremes.exact
      ∧ integersShownAsN.Allocates last)
    ∧ Arithmetic.extremes.exact = Int64.minValue.toInt
    ∧ ∃ last, eval Arithmetic.excessive.node integersShownAsN = .error (.outOfRange "-") last
      ∧ integersShownAsN.Allocates last := by
  have hroom : integersShownAsN.stack.depth < integersShownAsN.settings.maxDepth := by decide +kernel
  have hretains : ∀ op : Arithmetic.Op, integersShownAsN.classes.Retains ClassId.integer op.symbol := by
    intro op
    rw [Hierarchy.Retains, Arithmetic.own?_initial]
    cases op <;> rfl
  have hfits : ∀ result ∈ Arithmetic.extremes.results, Arithmetic.Fits result.2 := by decide
  have hfirst : Arithmetic.excessive.results.find? (fun result => ¬ Arithmetic.Fits result.2)
      = some (.subtract, -9223372036854775809) := by decide
  exact ⟨⟨hroom, hretains, hfits, hfirst⟩,
    (arithmetic_is_exact_up_to_first_overflow _ Arithmetic.extremes hroom hretains).1 hfits, by decide,
    (arithmetic_is_exact_up_to_first_overflow _ Arithmetic.excessive hroom hretains).2 _ _ hfirst⟩

end Machine

end ObjectTalk
