import Mathlib.Data.List.Forall2
import Mathlib.Logic.Function.Basic
import ObjectTalk.Proofs.Allocation
import ObjectTalk.Proofs.Binding
/-!
# `Proofs.DisplayPrograms` — what straight-line programs write

A display program assigns variables of the top level and writes texts: all that it works with are strings and integers,
and what it writes depends on their texts alone. `Display` says what that is without heap, frames and messages: it
keeps the text of each variable (`Display.Store`), joins the texts of the parts of a string, and lists what each
statement writes.

The machine does the same (`Machine.Simulates`): a variable holds `nil` or an object whose payload has the text that
the store keeps, objects that are there do not change their payloads, and `puts` and `print` are found in the root
class, called in a frame of their own and shown each text by its payload.
-/

namespace ObjectTalk

/-! ## Display programs and their texts -/

namespace Display

/-- An expression that has a text, by `Expr.text`. -/
inductive Expr where
  | string (text : String)
  | integer (value : Int64)
  | localRead (name : String)
  | ivarRead (name : String)
  | interpolated (parts : List Expr)

/-- A statement of a display program, which may write (`Statement.written`) and set a variable
    (`Statement.assigned`). -/
inductive Statement where
  | localAssign (name : String) (value : Expr)
  | ivarAssign (name : String) (value : Expr)
  | puts (args : List Expr)
  | print (args : List Expr)

mutual

/-- The expression as a `Node`. -/
def Expr.node : Expr → Node
  | .string text => .stringLit text
  | .integer value => .integerLit value
  | .localRead name => .localRead name
  | .ivarRead name => .ivarRead name
  | .interpolated parts => .interpolated (nodes parts)

/-- Expressions as nodes, each by `Expr.node`. -/
def nodes : List Expr → List Node
  | [] => []
  | expr :: exprs => expr.node :: nodes exprs

end

/-- The statement as a node; `puts` and `print` are sent to self. -/
def Statement.node : Statement → Node
  | .localAssign name value => .localAssign name value.node
  | .ivarAssign name value => .ivarAssign name value.node
  | .puts args => .send none "puts" (nodes args)
  | .print args => .send none "print" (nodes args)

/-- The texts of the variables; the text of one that is not set is empty. -/
structure Store where
  locals : String → String := fun _ => ""
  ivars : String → String := fun _ => ""

mutual

/-- The text of an expression. -/
def Expr.text (store : Store) : Expr → String
  | .string text => text
  | .integer value => toString value.toInt
  | .localRead name => store.locals name
  | .ivarRead name => store.ivars name
  | .interpolated parts => String.join (texts store parts)

/-- The texts of expressions, each by `Expr.text`. -/
def texts (store : Store) : List Expr → List String
  | [] => []
  | expr :: exprs => expr.text store :: texts store exprs

end

/-- The text with a newline at its end, which is added if the text does not end with one. -/
def line (text : String) : String :=
  if ['\n'] <:+ text.toList then text else text ++ "\n"

/-- The `Store` after a statement. -/
def Statement.assigned (store : Store) : Statement → Store
  | .localAssign name value =>
    { store with locals := Function.update store.locals name (value.text store) }
  | .ivarAssign name value =>
    { store with ivars := Function.update store.ivars name (value.text store) }
  | .puts _ => store
  | .print _ => store

/-- Each text on its `line`, or a single newline if there is no text. -/
def lines : List String → String
  | [] => "\n"
  | texts => String.join (texts.map line)

/-- What a statement writes, where the variables have the texts that the `Store` keeps. -/
def Statement.written (store : Store) : Statement → String
  | .localAssign .. => ""
  | .ivarAssign .. => ""
  | .puts args => lines (texts store args)
  | .print args => String.join (texts store args)

/-- What statements write, one after another: each one reads what those before it have `assigned`. -/
def written (store : Store) : List Statement → String
  | [] => ""
  | statement :: statements => statement.written store ++ written (statement.assigned store) statements

/-- The program of some statements: the `Node.sequence` of their nodes. -/
def program (statements : List Statement) : Node :=
  .sequence (statements.map Statement.node)

theorem line_eq_asLine (text : String) : line text = asLine text := by
  unfold line asLine
  simp only [List.singleton_suffix_iff_getLast?_eq_some]

end Display

/-! ## Work that delivers -/

/-- The work ends with a result, of which `post` holds together with the machine at the end. -/
def Run.Delivers {α : Type} (work : Run α) (machine : Machine) (post : α → Machine → Prop) : Prop :=
  ∃ result last, work machine = .ok result last ∧ post result last

namespace Run

variable {α β : Type} {machine : Machine}

theorem Delivers.bind {first : Run α} {next : α → Run β} {middle : α → Machine → Prop}
    {post : β → Machine → Prop} (hfirst : first.Delivers machine middle)
    (hnext : ∀ result between, middle result between → (next result).Delivers between post) :
    (first >>= next).Delivers machine post := by
  obtain ⟨result, between, hok, hmiddle⟩ := hfirst
  obtain ⟨result', last, hok', hpost⟩ := hnext result between hmiddle
  refine ⟨result', last, ?_, hpost⟩
  rw [bind_apply, hok]
  exact hok'

theorem Delivers.imp {work : Run α} {post weaker : α → Machine → Prop} (h : work.Delivers machine post)
    (hle : ∀ result last, post result last → weaker result last) : work.Delivers machine weaker := by
  obtain ⟨result, last, hok, hpost⟩ := h
  exact ⟨result, last, hok, hle result last hpost⟩

end Run

/-! ## Output -/

namespace Output

theorem write_empty (output : Output) : output.write "" = output := by
  cases output <;> simp [write]

theorem write_write (output : Output) (first second : String) :
    (output.write first).write second = output.write (first ++ second) := by
  cases output <;> simp [write, String.append_assoc]

end Output

/-! ## Values that have a text -/

/-- The value has the text: it is `nil`, or holds a text or a number, so that no `to_s` is sent for it. -/
inductive Heap.Shows (heap : Heap) : Value → String → Prop where
  | nil : Shows heap .nil ""
  | text {value : Value} {text : String} (h : heap.payload? value = some (.text text)) : Shows heap value text
  | number {value : Value} {number : Int64} (h : heap.payload? value = some (.number number)) :
      Shows heap value (toString number.toInt)

namespace Machine

variable {machine last : Machine}

theorem Allocates.shows (h : machine.Allocates last) {value : Value} {text : String}
    (hshows : machine.heap.Shows value text) : last.heap.Shows value text := by
  cases hshows with
  | nil => exact .nil
  | text hpayload => exact .text (h.payload? hpayload)
  | number hpayload => exact .number (h.payload? hpayload)

end Machine

/-- **A value that `Shows` a text is displayed by it**, and nothing is called or changed. -/
theorem displayWith_of_shows (call : Caller) {machine : Machine} {value : Value} {text : String}
    (h : machine.heap.Shows value text) : displayWith call value machine = .ok text machine := by
  have hholds : ∀ {payload : Payload}, machine.heap.payload? value = some payload →
      displayWith call value machine
        = (Plan.displayHolding value (some payload)).follow ⟨call, displayUpTo call (value.rank - 1)⟩ machine := by
    intro payload hpayload
    cases value with
    | object id =>
        rw [displayWith]
        show displayUpTo call (id + 1) (.object id) machine = _
        rw [displayUpTo_succ]
        show (Plan.displayHolding _ (machine.heap.payload? (.object id))).follow _ machine = _
        rw [hpayload]
        rfl
    | nil => cases hpayload
    | classRef id => cases hpayload
  -- `nil`, texts and numbers are shown by the plan itself; none of the services is asked
  cases h with
  | nil => rfl
  | text hpayload =>
      rw [hholds hpayload]
      rfl
  | number hpayload =>
      rw [hholds hpayload]
      rfl

/-! ## Machines and stores -/

/-- The machine is at the top level, with room for a call and with the classes of a new machine, and each variable of
    self and of the frame `Shows` the text that the `Store` keeps. -/
structure Machine.Simulates (machine : Machine) (store : Display.Store) : Prop where
  classes : machine.classes = Hierarchy.initial
  self : machine.stack.current.self = main
  present : 0 < machine.heap.size
  classId : (machine.heap.get 0).classId = ClassId.root
  room : machine.stack.depth < machine.settings.maxDepth
  locals : ∀ name, machine.heap.Shows ((machine.stack.current.locals.get? name).getD .nil) (store.locals name)
  ivars : ∀ name, machine.heap.Shows (machine.ivar main name) (store.ivars name)

namespace Machine

variable {machine last : Machine} {store : Display.Store}

theorem Simulates.allocates (h : machine.Simulates store) (hallocates : machine.Allocates last) :
    last.Simulates store := by
  have hmain := hallocates.objects 0 h.present
  have hivar : ∀ name, last.ivar main name = machine.ivar main name := by
    intro name
    simp only [ivar, main, hmain]
  constructor
  · rw [hallocates.classes, h.classes]
  · rw [hallocates.stack, h.self]
  · exact Nat.lt_of_lt_of_le h.present hallocates.size
  · rw [hmain, h.classId]
  · rw [hallocates.stack, hallocates.settings]
    exact h.room
  · intro name
    rw [hallocates.stack]
    exact hallocates.shows (h.locals name)
  · intro name
    rw [hivar]
    exact hallocates.shows (h.ivars name)

theorem Simulates.write (h : machine.Simulates store) (text : String) :
    Simulates { machine with output := machine.output.write text } store :=
  ⟨h.classes, h.self, h.present, h.classId, h.room, h.locals, h.ivars⟩

theorem simulates_boot {settings : Settings} (h : 2 ≤ settings.maxDepth) (output : Output) :
    (boot settings output).Simulates {} where
  classes := rfl
  self := rfl
  present := Nat.zero_lt_one
  classId := rfl
  room := h
  locals _ := .nil
  ivars _ := .nil

end Machine

/-! ## Expressions -/

section

variable {machine : Machine}

theorem delivers_traceNode (node : Node) (machine : Machine) :
    (traceNode node).Delivers machine fun _ last => machine.Allocates last :=
  ⟨(), _, Machine.traceNode_apply node machine, Machine.allocates_traced node.kind machine⟩

/-- What `Run.alloc` gives has the place after all others, and its payload has the text. -/
theorem delivers_alloc (machine : Machine) {object : Object} {text : String}
    (h : ∀ {heap : Heap} {value : Value}, heap.payload? value = object.payload → heap.Shows value text) :
    (Run.alloc object).Delivers machine fun value last => machine.Allocates last ∧ last.heap.Shows value text := by
  refine ⟨_, _, rfl, Machine.allocates_push machine object, h ?_⟩
  rw [Heap.payload?, Heap.get_push, if_pos rfl]

theorem delivers_allocString (text : String) (machine : Machine) :
    (Run.allocString text).Delivers machine fun value last =>
      machine.Allocates last ∧ last.heap.Shows value text :=
  delivers_alloc machine .text

theorem delivers_allocInteger (number : Int64) (machine : Machine) :
    (Run.allocInteger number).Delivers machine fun value last =>
      machine.Allocates last ∧ last.heap.Shows value (toString number.toInt) :=
  delivers_alloc machine .number

/-- What is done after `traceNode` can do without the record. -/
theorem Run.Delivers.traced {node : Node} {work : Run Value} {text : String}
    (h : ∀ middle : Machine, machine.Allocates middle →
      work.Delivers middle fun value last => middle.Allocates last ∧ last.heap.Shows value text) :
    (traceNode node >>= fun _ => work).Delivers machine fun value last =>
      machine.Allocates last ∧ last.heap.Shows value text := by
  refine (delivers_traceNode node machine).bind fun _ middle hmiddle => ?_
  exact (h middle hmiddle).imp fun value last hlast => ⟨hmiddle.trans hlast.1, hlast.2⟩

end

namespace Display

variable (call : Caller) (store : Store)

mutual

/-- **Evaluating an expression only `Allocates`, and gives a value that `Shows` the text of the expression.** -/
theorem delivers_node : (expr : Expr) → {machine : Machine} → machine.Simulates store →
    (evalWith call expr.node).Delivers machine fun value last =>
      machine.Allocates last ∧ last.heap.Shows value (expr.text store)
  | .string text, machine, h => by
      rw [Expr.node, evalWith]
      exact .traced fun middle _ => delivers_allocString text middle
  | .integer value, machine, h => by
      rw [Expr.node, evalWith]
      exact .traced fun middle _ => delivers_allocInteger value middle
  | .localRead name, machine, h => by
      rw [Expr.node, evalWith]
      refine .traced fun middle hmiddle => ?_
      exact ⟨_, _, rfl, .refl middle, (h.allocates hmiddle).locals name⟩
  | .ivarRead name, machine, h => by
      rw [Expr.node, evalWith]
      refine .traced fun middle hmiddle => ?_
      have hmiddle' := h.allocates hmiddle
      refine ⟨_, _, rfl, .refl middle, ?_⟩
      rw [hmiddle'.self]
      exact hmiddle'.ivars name
  | .interpolated parts, machine, h => by
      rw [Expr.node, evalWith]
      refine .traced fun middle hmiddle => ?_
      refine (delivers_parts "" parts (h.allocates hmiddle)).bind fun text between hbetween => ?_
      obtain ⟨hallocates, htext⟩ := hbetween
      refine (delivers_allocString text between).imp fun value last hlast => ?_
      rw [String.empty_append] at htext
      rw [Expr.text, ← htext]
      exact ⟨hallocates.trans hlast.1, hlast.2⟩

/-- `evalParts` shows each part before it evaluates the next one. -/
theorem delivers_parts (text : String) : (parts : List Expr) → {machine : Machine} → machine.Simulates store →
    (evalParts call text (nodes parts)).Delivers machine fun result last =>
      machine.Allocates last ∧ result = text ++ String.join (texts store parts)
  | [], machine, h => by
      rw [nodes, evalParts]
      exact ⟨_, _, rfl, .refl machine, String.append_empty.symm⟩
  | part :: parts, machine, h => by
      rw [nodes, evalParts]
      refine (delivers_node part h).bind fun value middle hmiddle => ?_
      have hshown : (displayWith call value).Delivers middle fun result last =>
          result = part.text store ∧ last = middle :=
        ⟨_, _, displayWith_of_shows call hmiddle.2, rfl, rfl⟩
      refine hshown.bind fun result between hbetween => ?_
      obtain ⟨rfl, rfl⟩ := hbetween
      refine (delivers_parts (text ++ part.text store) parts (h.allocates hmiddle.1)).imp fun joined last hlast => ?_
      refine ⟨hmiddle.1.trans hlast.1, ?_⟩
      rw [hlast.2, texts, String.join_cons, String.append_assoc]

end

theorem delivers_args : (args : List Expr) → {machine : Machine} → machine.Simulates store →
    (evalAll call (nodes args)).Delivers machine fun values last =>
      machine.Allocates last ∧ List.Forall₂ last.heap.Shows values (texts store args)
  | [], machine, h => by
      rw [nodes, evalAll]
      exact ⟨_, _, rfl, .refl machine, .nil⟩
  | arg :: args, machine, h => by
      rw [nodes, evalAll]
      refine (delivers_node call store arg h).bind fun value middle hmiddle => ?_
      refine (delivers_args args (h.allocates hmiddle.1)).bind fun values last hlast => ?_
      refine ⟨_, _, rfl, hmiddle.1.trans hlast.1, ?_⟩
      exact .cons (hlast.1.shows hmiddle.2) hlast.2

end Display

/-! ## Assignments -/

theorem Heap.payload?_bindIvar (heap : Heap) (id : ObjectId) (name : String) (bound value : Value) :
    (heap.bindIvar id name bound).payload? value = heap.payload? value := by
  cases value with
  | object other =>
      simp only [Heap.payload?, Heap.get_bindIvar]
      split <;> rfl
  | nil => rfl
  | classRef other => rfl

theorem Heap.Shows.bindIvar {heap : Heap} {value : Value} {text : String} (h : heap.Shows value text)
    (id : ObjectId) (name : String) (bound : Value) : (heap.bindIvar id name bound).Shows value text := by
  cases h with
  | nil => exact .nil
  | text hpayload => exact .text ((heap.payload?_bindIvar ..).trans hpayload)
  | number hpayload => exact .number ((heap.payload?_bindIvar ..).trans hpayload)

namespace Machine

variable {machine last : Machine} {store : Display.Store}

theorem Simulates.bindLocal (h : machine.Simulates store) (name : String) {value : Value} {text : String}
    (hshows : machine.heap.Shows value text) :
    Simulates { machine with stack := machine.stack.bindLocal name value }
      { store with locals := Function.update store.locals name text } := by
  have hcurrent := CallStack.current_bindLocal name value machine.stack
  refine ⟨h.classes, ?_, h.present, h.classId, ?_, ?_, h.ivars⟩
  · rw [hcurrent]
    exact h.self
  · simpa using h.room
  · intro other
    simp only [hcurrent, Table.get?_set, Function.update_apply]
    by_cases hname : other = name
    · simpa [hname] using hshows
    · simpa [hname] using h.locals other

theorem Simulates.bindIvar (h : machine.Simulates store) (name : String) {value : Value} {text : String}
    (hshows : machine.heap.Shows value text) :
    Simulates { machine with heap := machine.heap.bindIvar 0 name value }
      { store with ivars := Function.update store.ivars name text } := by
  have hmain : (machine.heap.bindIvar 0 name value).get 0
      = { machine.heap.get 0 with ivars := (machine.heap.get 0).ivars.set name value } := by
    rw [Heap.get_bindIvar, if_pos ⟨rfl, h.present⟩]
  refine ⟨h.classes, h.self, ?_, ?_, h.room, ?_, ?_⟩
  · simpa using h.present
  · rw [hmain]
    exact h.classId
  · intro other
    exact (h.locals other).bindIvar 0 name value
  · intro other
    have hother := (h.ivars other).bindIvar 0 name value
    simp only [ivar, main] at hother
    simp only [ivar, main, hmain, Table.get?_set, Function.update_apply]
    by_cases hname : other = name
    · simpa [hname] using hshows.bindIvar 0 name value
    · simpa [hname] using hother

end Machine

/-! ## Writing -/

/-- Values of which each `Shows` a text are written by their texts, each in its form. -/
theorem forM_write_of_shows (call : Caller) (form : String → String) {heap : Heap} {values : List Value}
    {texts : List String} (h : List.Forall₂ heap.Shows values texts) {machine : Machine}
    (hheap : machine.heap = heap) :
    (values.forM fun value => do Run.write (form (← displayWith call value))) machine
      = .ok () { machine with output := machine.output.write (String.join (texts.map form)) } := by
  induction h generalizing machine with
  | nil =>
      have hempty : String.join ([].map form) = "" := rfl
      rw [hempty, Output.write_empty]
      rfl
  | @cons value text values texts hvalue _ ih =>
      have hdisplay : displayWith call value machine = .ok text machine := by
        subst hheap
        exact displayWith_of_shows call hvalue
      -- what is written first leaves the heap as it is, so the others still have their texts
      let written : Machine := { machine with output := machine.output.write (form text) }
      have hrest := ih (show written.heap = heap from hheap)
      rw [List.map_cons, String.join_cons, ← Output.write_write]
      rw [List.forM, bind_assoc, Run.bind_apply, hdisplay]
      exact hrest

/-- Called with values that have texts (`Heap.Shows`), the built-in method writes the texts in a form, and does
    nothing else. -/
def Builtin.Writes (action : Builtin) (form : List String → String) : Prop :=
  ∀ (call : Caller) (receiver : Value) {values : List Value} {texts : List String} {machine : Machine},
    List.Forall₂ machine.heap.Shows values texts →
      action.applyWith call receiver values machine
        = .ok .nil { machine with output := machine.output.write (form texts) }

theorem Builtin.writes_puts : Builtin.puts.Writes Display.lines := by
  intro call receiver values texts machine h
  cases h with
  | nil => rfl
  | @cons value text values texts hvalue hvalues =>
      have hforM := forM_write_of_shows call asLine (.cons hvalue hvalues) rfl
      have hlines : Display.lines (text :: texts) = String.join ((text :: texts).map asLine) := by
        rw [Display.lines, ← funext Display.line_eq_asLine]
        exact List.cons_ne_nil text texts
      rw [hlines, Builtin.applyWith, Builtin.handler, Handler.applyWith, putsWith]
      simp only [List.isEmpty_cons, Bool.false_eq_true, if_false]
      rw [Run.bind_apply, hforM]
      rfl

theorem Builtin.writes_print : Builtin.print.Writes String.join := by
  intro call receiver values texts machine h
  have hforM := forM_write_of_shows call id h rfl
  simp only [List.map_id, id] at hforM
  rw [Builtin.applyWith, Builtin.handler, Handler.applyWith, Run.bind_apply, hforM]
  rfl

namespace Machine

variable {machine : Machine} {store : Display.Store} {name : String} {action : Builtin} {form : List String → String}

/-- **A message that `ClassId.root` answers by writing** (`Builtin.Writes`) is found, called in a frame of its own,
    and writes. -/
theorem Simulates.delivers_send (h : machine.Simulates store)
    (hfound : Hierarchy.initial.lookup ClassId.root name = some (ClassId.root, .builtin name (.orMore 0) action))
    (hwrites : action.Writes form) {values : List Value} {texts : List String}
    (hshows : List.Forall₂ machine.heap.Shows values texts) :
    (sendWith (callWithin machine.room) main name values).Delivers machine fun _ last =>
      Allocates { machine with output := machine.output.write (form texts) } last := by
  have hclass : machine.classOf? main = some ClassId.root := by
    rw [← h.classId]
    rfl
  have hlookup : machine.classes.lookup ClassId.root name
      = some (ClassId.root, .builtin name (.orMore 0) action) := by
    rw [h.classes]
    exact hfound
  have hadmits : (Arity.orMore 0).admits values.length := by
    simp [Arity.admits, Arity.orMore]
  have hsend := send_of_lookup hclass hlookup hadmits h.room
  let inner := (machine.log (.entered name)).pushed main
  have hinner : action.applyWith (callWithin (machine.room - 1)) main values inner
      = .ok .nil { inner with output := inner.output.write (form texts) } :=
    hwrites _ main hshows
  rw [hinner] at hsend
  -- when the frame of the call has been taken off, the output and the journal are all that is new
  exact ⟨.nil, _, hsend, rfl, rfl, rfl, rfl, le_refl _, fun _ _ => rfl⟩

/-- Evaluating the arguments only `Allocates`, so that the message is sent with the room that there was before. -/
theorem Simulates.delivers_message (h : machine.Simulates store)
    (hfound : Hierarchy.initial.lookup ClassId.root name = some (ClassId.root, .builtin name (.orMore 0) action))
    (hwrites : action.Writes form) (args : List Display.Expr) :
    (evalWith (callWithin machine.room) (.send none name (Display.nodes args))).Delivers machine fun _ last =>
      last.Simulates store ∧ last.output = machine.output.write (form (Display.texts store args)) := by
  rw [evalWith]
  refine (delivers_traceNode _ machine).bind fun _ middle hmiddle => ?_
  -- without a receiver the message goes to self, which is the main object at the top level
  have hself : (evalReceiver (callWithin machine.room) none).Delivers middle fun value last =>
      value = main ∧ last = middle := by
    rw [evalReceiver]
    exact ⟨_, _, rfl, (h.allocates hmiddle).self, rfl⟩
  refine hself.bind fun _ _ hreceiver => ?_
  obtain ⟨rfl, rfl⟩ := hreceiver
  refine (Display.delivers_args _ store args (h.allocates hmiddle)).bind fun values between hargs => ?_
  have hbefore := hmiddle.trans hargs.1
  rw [← hbefore.room_eq]
  refine ((h.allocates hbefore).delivers_send hfound hwrites hargs.2).imp fun _ last hlast => ?_
  refine ⟨((h.allocates hbefore).write _).allocates hlast, ?_⟩
  rw [hlast.output, hbefore.output]

/-- An assignment evaluates its value, which `Allocates`, before it binds the variable. -/
theorem Simulates.delivers_assignment (h : machine.Simulates store) (call : Caller) (node : Node)
    (value : Display.Expr) {bind : Value → Run Value} {assigned : Display.Store}
    (hbind : ∀ {result : Value} {between : Machine}, between.Simulates store →
      between.heap.Shows result (value.text store) →
        (bind result).Delivers between fun _ last => last.Simulates assigned ∧ last.output = between.output) :
    (do traceNode node; bind (← evalWith call value.node)).Delivers machine fun _ last =>
      last.Simulates assigned ∧ last.output = machine.output.write "" := by
  refine (delivers_traceNode node machine).bind fun _ middle hmiddle => ?_
  refine (Display.delivers_node call store value (h.allocates hmiddle)).bind fun result between hbetween => ?_
  have hbefore := hmiddle.trans hbetween.1
  refine (hbind (h.allocates hbefore) hbetween.2).imp fun _ last hlast => ?_
  refine ⟨hlast.1, ?_⟩
  rw [hlast.2, hbefore.output, Output.write_empty]

/-! ## Programs -/

/-- **After a statement the machine still `Simulates` the store**, and it has written `Statement.written`. -/
theorem Simulates.delivers_statement (h : machine.Simulates store) (statement : Display.Statement) :
    (evalWith (callWithin machine.room) statement.node).Delivers machine fun _ last =>
      last.Simulates (statement.assigned store) ∧ last.output = machine.output.write (statement.written store) := by
  cases statement with
  | localAssign name value =>
      rw [Display.Statement.node, evalWith]
      refine h.delivers_assignment _ _ value ?_
      intro result between hbetween hshows
      exact ⟨_, _, rfl, hbetween.bindLocal name hshows, rfl⟩
  | ivarAssign name value =>
      rw [Display.Statement.node, evalWith]
      refine h.delivers_assignment _ _ value ?_
      intro result between hbetween hshows
      refine ⟨result, _, ?_, hbetween.bindIvar name hshows, rfl⟩
      rw [Run.bind_apply]
      show (Run.bindIvar between.stack.current.self name result >>= fun _ => pure result) between = _
      rw [hbetween.self]
      rfl
  | puts args => exact h.delivers_message rfl Builtin.writes_puts args
  | print args => exact h.delivers_message rfl Builtin.writes_print args

theorem delivers_run {program : Node} {post : Value → Machine → Prop}
    (h : (evalWith (callWithin machine.room) program).Delivers machine post) :
    (run program).Delivers machine post := by
  obtain ⟨value, last, hok, hpost⟩ := h
  refine ⟨value, last, ?_, hpost⟩
  rw [run_eq_reported, eval, hok]
  rfl

/-- **Statements that are run one after another write what they are said to write**: `Display.written`. -/
theorem Simulates.delivers_statements (h : machine.Simulates store) (value : Value)
    (statements : List Display.Statement) :
    ((statements.map Display.Statement.node).foldlM (fun _ program => run program) value).Delivers machine
      fun _ last => last.output = machine.output.write (Display.written store statements) := by
  induction statements generalizing machine store value with
  | nil => exact ⟨value, machine, rfl, (Output.write_empty machine.output).symm⟩
  | cons statement statements ih =>
      rw [List.map_cons, List.foldlM_cons]
      refine (delivers_run (h.delivers_statement statement)).bind fun result middle hmiddle => ?_
      refine (ih hmiddle.1 result).imp fun _ last hlast => ?_
      rw [hlast, hmiddle.2, Output.write_write, Display.written]

/-- **Straight-line display programs write their texts.** On a new machine with room for a call, a `Display.program`
    runs to its end, and the text that is kept then is the one before, followed by what `Display.written` says. -/
theorem display_programs_write_their_texts {settings : Settings} (h : 2 ≤ settings.maxDepth) (output : Output)
    (statements : List Display.Statement) :
    ∃ value last, run (Display.program statements) (boot settings output) = .ok value last ∧
      ∀ before, output = .kept before → last.output = .kept (before ++ Display.written {} statements) := by
  have hstart := (simulates_boot h output).allocates (allocates_traced "sequence" _)
  obtain ⟨value, last, hok, hwritten⟩ := hstart.delivers_statements .nil statements
  refine ⟨value, last, ?_, ?_⟩
  · rw [Display.program, run_sequence]
    exact hok
  · intro before hbefore
    rw [hwritten, (allocates_traced "sequence" _).output, hbefore]
    rfl

end Machine

/-- A program that sets variables again and reads them before they are set. -/
def Display.rebinding : List Display.Statement :=
  [.puts [],
   .localAssign "a" (.integer (-12)),
   .puts [.interpolated [.localRead "a", .string "|", .ivarRead "b", .localRead "c"], .string "end\n"],
   .ivarAssign "b" (.interpolated [.localRead "a", .interpolated [.string "x", .localRead "a"]]),
   .localAssign "a" (.ivarRead "b"),
   .print [.localRead "a", .integer 7, .ivarRead "b"]]

theorem Machine.display_programs_write_their_texts_rebinding :
    2 ≤ (2 : Nat) ∧
    ∃ value last, run (Display.program Display.rebinding) (boot { maxDepth := 2 } (.kept "before: ")) = .ok value last ∧
      last.output = .kept "before: \n-12|\nend\n-12x-127-12x-12" := by
  have hroom : 2 ≤ ({ maxDepth := 2 } : Settings).maxDepth := le_refl 2
  obtain ⟨value, last, hok, hkept⟩ :=
    display_programs_write_their_texts hroom (.kept "before: ") Display.rebinding
  have hwritten : Display.written {} Display.rebinding = "\n-12|\nend\n-12x-127-12x-12" := by decide +kernel
  refine ⟨le_refl 2, value, last, hok, ?_⟩
  rw [hkept _ rfl, hwritten]
  rfl

end ObjectTalk
