import Mathlib.Data.List.Induction
import Mathlib.Logic.Function.Iterate
import ObjectTalk.Proofs.Namespaces
import ObjectTalk.Proofs.Payloads
import ObjectTalk.Proofs.Precedence
import ObjectTalk.Proofs.Sequencing
/-!
# `Proofs.ConstantPaths` — constants that are named by a path

A path is a list of names. The first is looked up in the root class and each other one in the class that the names
before it denote, always among the constants that this class has itself. What a path denotes is `Hierarchy.Denotes`;
a path that denotes nothing has a first name that is missing (`Hierarchy.Misses`), or names that denote something other
than a class before it ends (`Hierarchy.Strays`).

A path can be evaluated, as a constant, and it can be the target of a class definition, which evaluates all of it but
the last name. When the class has been opened the path denotes it, and as constants are only added this stays so
(`Machine.denotes_of_openClass`, `Hierarchy.Denotes.of_grown`).
-/

namespace ObjectTalk

/-! ## Paths -/

namespace Node

/-- The scope, a `path` or none, in which something stands that is named after these names. -/
def qualifier (names : List String) : Option Node :=
  names.foldl (fun scope name => some (.constRef scope name)) none

/-- The constant, as a chain of `Node.constRef`, that the names name, of which one is the last. -/
def path (front : List String) (name : String) : Node :=
  .constRef (qualifier front) name

theorem qualifier_append (front : List String) (name : String) :
    qualifier (front ++ [name]) = some (path front name) := by
  simp [qualifier, path]

end Node

namespace Hierarchy

variable {hierarchy later : Hierarchy} {names : List String} {name : String} {value : Value}

/-- The names denote the value: no names denote `ClassId.root`, and one name more what it stands for among the
    constants of the class that the others denote. -/
inductive Denotes (hierarchy : Hierarchy) : List String → Value → Prop where
  | root : Denotes hierarchy [] (.classRef ClassId.root)
  | member {names : List String} {scope : ClassId} {name : String} {value : Value}
      (hscope : Denotes hierarchy names (.classRef scope)) (hvalue : hierarchy.constant? scope name = some value) :
      Denotes hierarchy (names ++ [name]) value

/-- The names before the one that is missing denote the namespace (`Denotes`), which has no such constant. -/
def Misses (hierarchy : Hierarchy) (names : List String) (missing : String) (scope : ClassId) : Prop :=
  ∃ front back, names = front ++ missing :: back ∧ hierarchy.Denotes front (.classRef scope)
    ∧ hierarchy.constant? scope missing = none

/-- Before they end, the names denote (`Denotes`) a value that is not a class. -/
def Strays (hierarchy : Hierarchy) (names : List String) (value : Value) : Prop :=
  ∃ front name back, names = front ++ name :: back ∧ hierarchy.Denotes front value ∧ ∀ id, value ≠ .classRef id

/-- **Names denote a value, miss a constant or stray**: `Denotes`, `Misses` or `Strays`. By induction from the back:
    what has gone wrong stays wrong when a name is added. -/
theorem denotes_or_misses_or_strays (hierarchy : Hierarchy) (names : List String) :
    (∃ value, hierarchy.Denotes names value) ∨ (∃ missing scope, hierarchy.Misses names missing scope)
      ∨ ∃ value, hierarchy.Strays names value := by
  induction names using List.reverseRecOn with
  | nil => exact .inl ⟨_, .root⟩
  | append_singleton front name ih =>
      rcases ih with ⟨value, hvalue⟩ | ⟨missing, scope, before, after, rfl, hmisses⟩
        | ⟨value, before, first, after, rfl, hstrays⟩
      · cases value with
        | classRef scope =>
            cases hconstant : hierarchy.constant? scope name with
            | none => exact .inr (.inl ⟨name, scope, front, [], rfl, hvalue, hconstant⟩)
            | some found => exact .inl ⟨found, .member hvalue hconstant⟩
        | nil => exact .inr (.inr ⟨_, front, name, [], rfl, hvalue, by simp⟩)
        | object id => exact .inr (.inr ⟨_, front, name, [], rfl, hvalue, by simp⟩)
      · exact .inr (.inl ⟨missing, scope, before, after ++ [name], by simp, hmisses⟩)
      · exact .inr (.inr ⟨value, before, first, after ++ [name], by simp, hstrays⟩)

/-- What holds of `Denotes` goes on to hold while constants are added. -/
theorem Denotes.of_grown (h : hierarchy.Denotes names value) (hgrown : hierarchy.Grown ClassEntry.Adds later) :
    later.Denotes names value := by
  induction h with
  | root => exact .root
  | member _ hvalue ih =>
      have hentry := hgrown.entries _ (lt_size_of_constant? hvalue)
      exact .member ih (Table.get?_of_prefix hentry.constants hvalue)

end Hierarchy

namespace Machine

variable {machine middle last : Machine} {names : List String} {value : Value}

theorem WellFormed.owns_of_denotes (h : machine.WellFormed) (hdenotes : machine.classes.Denotes names value) :
    machine.Owns value := by
  induction hdenotes with
  | root => exact (wellFormed.basic h).root
  | member _ hvalue ih => exact (h.contained.holds.classes _ ih).constants.get? hvalue

/-! ## Following a path -/

/-- What the names denote, found one after another by `Query.constant`. -/
def resolve (machine : Machine) (names : List String) : Except Fault Value :=
  names.foldlM (fun value name => do
    let scope ← (Query.asClass value).ask machine
    (Query.constant scope name).ask machine) (.classRef ClassId.root)

theorem resolve_append (machine : Machine) (front back : List String) :
    machine.resolve (front ++ back) = machine.resolve front >>= fun value =>
      back.foldlM (fun value name => do
        let scope ← (Query.asClass value).ask machine
        (Query.constant scope name).ask machine) value := by
  rw [resolve, resolve, List.foldlM_append]

/-- `resolve` finds what the names denote. By induction on `Denotes`. -/
theorem resolve_of_denotes (h : machine.classes.Denotes names value) : machine.resolve names = .ok value := by
  induction h with
  | root => rfl
  | @member names scope name value _ hvalue ih =>
      have hask : (Query.constant scope name).ask machine = .ok value := by rw [Query.ask, hvalue]
      rw [resolve_append, ih]
      show (Query.constant scope name).ask machine >>= pure = _
      rw [hask]
      rfl

theorem resolve_of_misses {missing : String} {scope : ClassId} (h : machine.classes.Misses names missing scope) :
    machine.resolve names = .error (.unboundConstant missing (machine.classes.name scope)) := by
  obtain ⟨front, back, rfl, hfront, hnone⟩ := h
  have hask : (Query.constant scope missing).ask machine
      = .error (.unboundConstant missing (machine.classes.name scope)) := by
    rw [Query.ask, hnone]
  rw [resolve_append, resolve_of_denotes hfront]
  show (Query.constant scope missing).ask machine >>= _ = _
  rw [hask]
  rfl

theorem resolve_of_strays (h : machine.classes.Strays names value) :
    machine.resolve names = .error (.wrongKind .aClass (machine.describe value)) := by
  obtain ⟨front, name, back, rfl, hfront, hvalue⟩ := h
  rw [resolve_append, resolve_of_denotes hfront]
  cases value with
  | classRef id => exact absurd rfl (hvalue id)
  | nil => rfl
  | object id => rfl

/-- **`resolve` finds exactly what the path `Denotes`.** -/
theorem resolve_eq_ok_iff : machine.resolve names = .ok value ↔ machine.classes.Denotes names value := by
  refine ⟨?_, resolve_of_denotes⟩
  intro hok
  rcases machine.classes.denotes_or_misses_or_strays names with ⟨found, hfound⟩ | ⟨missing, scope, hmisses⟩
    | ⟨found, hstrays⟩
  · rw [resolve_of_denotes hfound] at hok
    cases hok
    exact hfound
  · rw [resolve_of_misses hmisses] at hok
    cases hok
  · rw [resolve_of_strays hstrays] at hok
    cases hok

/-- **`resolve` fails with what the path `Misses`**, or with that to which it `Strays`. -/
theorem resolve_eq_error_iff {fault : Fault} :
    machine.resolve names = .error fault
      ↔ (∃ missing scope, machine.classes.Misses names missing scope
          ∧ fault = .unboundConstant missing (machine.classes.name scope))
        ∨ ∃ value, machine.classes.Strays names value ∧ fault = .wrongKind .aClass (machine.describe value) := by
  constructor
  · intro herror
    rcases machine.classes.denotes_or_misses_or_strays names with ⟨found, hfound⟩ | ⟨missing, scope, hmisses⟩
      | ⟨found, hstrays⟩
    · rw [resolve_of_denotes hfound] at herror
      cases herror
    · rw [resolve_of_misses hmisses] at herror
      cases herror
      exact .inl ⟨missing, scope, hmisses, rfl⟩
    · rw [resolve_of_strays hstrays] at herror
      cases herror
      exact .inr ⟨found, hstrays, rfl⟩
  · rintro (⟨missing, scope, hmisses, rfl⟩ | ⟨found, hstrays, rfl⟩)
    · exact resolve_of_misses hmisses
    · exact resolve_of_strays hstrays

end Machine

/-! ## Evaluating a path -/

/-- Asking a `Query` about the answer to another one changes nothing either. -/
theorem Query.bind_run {α β : Type} {work : Run α} (query : α → Query β) {machine last : Machine}
    {answer : Except Fault α} (h : work machine = outcome last answer) :
    (work >>= fun result => (query result).run) machine
      = outcome last (answer >>= fun result => (query result).ask last) := by
  rw [Run.bind_apply, h]
  cases answer with
  | ok result => exact run_eq_outcome (query result) last
  | error fault => rfl

namespace Machine

variable {machine other opened later : Machine} {front : List String} {name : String}

/-- What does not look at the journal is the same on machines that are the same when `unrecorded`. -/
theorem eq_of_unrecorded_eq {α : Type} (view : Machine → α)
    (hview : ∀ machine : Machine, view machine.unrecorded = view machine)
    (h : machine.unrecorded = other.unrecorded) : view machine = view other := by
  rw [← hview machine, h, hview other]

/-- The machine after the names of a `path` have been recorded, if it traces. -/
def tracedPath (count : Nat) (machine : Machine) : Machine := (traced "const-ref")^[count] machine

theorem unrecorded_tracedPath (count : Nat) (machine : Machine) :
    (machine.tracedPath count).unrecorded = machine.unrecorded := by
  unfold tracedPath
  induction count with
  | zero => rfl
  | succ count ih => rw [Function.iterate_succ_apply', unrecorded_traced, ih]

theorem tracedPath_of_not_trace (h : machine.settings.trace = false) (count : Nat) :
    machine.tracedPath count = machine := by
  have htraced : machine.traced "const-ref" = machine := by
    rw [traced, h]
    rfl
  exact Function.iterate_fixed htraced count

/-- The class to which `resolve` comes. -/
def resolveScope (machine : Machine) (names : List String) : Except Fault ClassId := do
  let value ← machine.resolve names
  (Query.asClass value).ask machine

theorem resolve_append_singleton (machine : Machine) (front : List String) (name : String) :
    machine.resolve (front ++ [name])
      = machine.resolveScope front >>= fun scope => (Query.constant scope name).ask machine := by
  rw [resolve_append, resolveScope]
  simp

/-- `evalScope` finds the `qualifier` of the names as `resolveScope` does, when they have been recorded. -/
def ScopeFound (call : Caller) (names : List String) : Prop :=
  ∀ machine : Machine, evalScope call (Node.qualifier names) machine
    = Query.outcome (machine.tracedPath names.length) (machine.resolveScope names)

/-- The last name of a `path` is looked up where those before it lead to. -/
theorem evalWith_path_of_scopeFound {call : Caller} (hscope : ScopeFound call front) (name : String)
    (machine : Machine) :
    evalWith call (.path front name) machine
      = Query.outcome (machine.tracedPath (front.length + 1)) (machine.resolve (front ++ [name])) := by
  have hresolve : (machine.traced "const-ref").resolveScope front = machine.resolveScope front :=
    eq_of_unrecorded_eq (fun machine => machine.resolveScope front) (fun _ => rfl) (unrecorded_traced _ _)
  have hask : ∀ scope, (Query.constant scope name).ask (machine.tracedPath (front.length + 1))
      = (Query.constant scope name).ask machine := fun scope =>
    eq_of_unrecorded_eq (Query.constant scope name).ask (fun _ => rfl) (unrecorded_tracedPath _ _)
  have hfound := Query.bind_run (fun scope => .constant scope name) (hscope (machine.traced "const-ref"))
  rw [Node.path, evalWith, Run.bind_apply, traceNode_apply, resolve_append_singleton, ← hresolve, ← funext hask]
  exact hfound

/-- **The scope of a path is `ScopeFound`.** By induction from the back, as the scope is a path itself. -/
theorem scopeFound (call : Caller) (names : List String) : ScopeFound call names := by
  induction names using List.reverseRecOn with
  | nil =>
      intro machine
      rw [show Node.qualifier [] = none from rfl, evalScope]
      rfl
  | append_singleton front name ih =>
      intro machine
      have hask : ∀ value, (Query.asClass value).ask (machine.tracedPath (front.length + 1))
          = (Query.asClass value).ask machine := fun value =>
        eq_of_unrecorded_eq (Query.asClass value).ask (fun _ => rfl) (unrecorded_tracedPath _ _)
      have hfound := Query.bind_run .asClass (evalWith_path_of_scopeFound ih name machine)
      rw [Node.qualifier_append, evalScope, List.length_append, List.length_singleton, resolveScope, ← funext hask]
      exact hfound

/-- **`eval` of a `path` finds what it denotes**, and does nothing but to record the names. -/
theorem eval_path (front : List String) (name : String) (machine : Machine) :
    eval (.path front name) machine
      = Query.outcome (machine.tracedPath (front.length + 1)) (machine.resolve (front ++ [name])) :=
  evalWith_path_of_scopeFound (scopeFound _ front) name machine

theorem denotes_of_resolveScope {names : List String} {scope : ClassId}
    (h : machine.resolveScope names = .ok scope) : machine.classes.Denotes names (.classRef scope) := by
  rw [resolveScope] at h
  cases hresolve : machine.resolve names with
  | error fault =>
      rw [hresolve] at h
      cases h
  | ok value =>
      rw [hresolve] at h
      cases value with
      | classRef id =>
          cases h
          exact resolve_eq_ok_iff.mp hresolve
      | nil => cases h
      | object id => cases h

end Machine

/-! ## Opening a class under a path -/

open Plan

/-- The plan of `openClass`: find the namespace and the superclass, then open the class or make it. -/
def Plan.opening (scope : Option Node) (name : String) (superclass : Option Node) : Plan ClassId := do
  let scope ← ofScope scope
  let superclass ← ofSuperclass superclass
  change (.declare scope name superclass)

/-- A plan that gives a result has come to it step by step: `Plan.andThen` through a middle. -/
theorem Plan.Ends.exists_of_andThen {α β : Type} {first : Plan α} {next : α → Plan β} {machine last : Machine}
    {result : β} (h : (Plan.andThen first next).Ends machine (.ok result last)) :
    ∃ answer middle, first.Ends machine (.ok answer middle) ∧ (next answer).Ends middle (.ok result last) := by
  cases h with
  | andThen hfirst hnext => exact ⟨_, _, hfirst, hnext⟩

namespace Machine

variable {machine opened later : Machine} {front : List String} {name : String} {scope superclass : Option Node}
  {id : ClassId}

/-- What a `Node.classDef` does before its body: record itself, find the namespace and the superclass, and open the
    class, or make it if the name is free. -/
def openClass (scope : Option Node) (name : String) (superclass : Option Node) : Run ClassId := fun machine =>
  (do
    let scope ← evalScope (callWithin machine.room) scope
    let superclass ← evalSuperclass (callWithin machine.room) superclass
    Run.declare scope name superclass : Run ClassId) (machine.traced "class-def")

theorem openClass_eq_follow (scope : Option Node) (name : String) (superclass : Option Node) (machine : Machine) :
    openClass scope name superclass machine
      = (opening scope name superclass).follow (.within machine.room) (machine.traced "class-def") := by
  rw [openClass, evalScope_eq_follow]
  simp only [evalSuperclass_eq_follow]
  rfl

theorem within_opening {selves : Value → Prop} {known : Set Value} (hbasic : Basic selves known)
    (scope : Option Node) (name : String) (superclass : Option Node) :
    (opening scope name superclass).Within selves known KnownClass := by
  refine within_ofScope scope hbasic fun k₁ h₁ scope hscope => ?_
  refine within_ofSuperclass superclass (hbasic.mono h₁) fun k₂ h₂ superclass hsuper => ?_
  exact ⟨⟨h₂ hscope, hsuper⟩, fun k₃ h₃ id hid => hid⟩

theorem WellFormed.traced (h : machine.WellFormed) (kind : String) : (machine.traced kind).WellFormed := by
  unfold Machine.traced
  split
  · exact h.step (.log _)
  · exact h

theorem room_traced (kind : String) (machine : Machine) : (machine.traced kind).room = machine.room := by
  unfold traced
  split <;> rfl

/-- More room than a machine has, in `callWithin`, is of no use. -/
theorem WellFormed.evalWith_of_room_le (h : machine.WellFormed) {room : Nat} (hroom : machine.room ≤ room)
    (node : Node) : evalWith (callWithin room) node machine = eval node machine := by
  obtain ⟨hcall, hdisplay⟩ := sound_within room
  have hwithin := within_ofNode node (wellFormed.basic h) fun _ _ _ hvalue => hvalue
  have hends := ends_follow_of_sound (Invariant.served_within room) hcall hdisplay (ofNode node) h hroom hwithin
  rw [evalWith_eq_follow]
  exact (ends_iff_eval h node _).mp hends

/-- **A class definition does `openClass` and evaluates its body in a frame for the class.** -/
theorem WellFormed.eval_classDef (h : machine.WellFormed) (scope : Option Node) (name : String)
    (superclass : Option Node) (body : Node) :
    eval (.classDef scope name superclass body) machine
      = (openClass scope name superclass >>= fun id => Run.inFrame (.classRef id) (eval body)) machine := by
  have hsplit : eval (.classDef scope name superclass body) machine
      = (openClass scope name superclass >>= fun id =>
          Run.inFrame (.classRef id) (evalWith (callWithin machine.room) body)) machine := by
    rw [eval, evalWith, Run.bind_apply, traceNode_apply]
    show _ = ((evalScope (callWithin machine.room) scope >>= fun scope =>
      evalSuperclass (callWithin machine.room) superclass >>= fun superclass =>
      Run.declare scope name superclass) >>= fun id =>
      Run.inFrame (.classRef id) (evalWith (callWithin machine.room) body)) (machine.traced "class-def")
    simp only [bind_assoc]
    rfl
  rw [hsplit, Run.bind_apply, Run.bind_apply]
  cases hopen : openClass scope name superclass machine with
  | error fault last => rfl
  | ok id opened =>
      simp only
      rw [openClass_eq_follow] at hopen
      have hwithin := within_opening (wellFormed.basic (h.traced "class-def")) scope name superclass
      obtain ⟨hopened, hroom, hid⟩ := ready_of_follow (Invariant.served_within machine.room) (h.traced "class-def")
        (room_traced _ _).le hopen hwithin
      rw [Run.inFrame_apply, Run.inFrame_apply]
      by_cases hfits : opened.stack.depth < opened.settings.maxDepth
      · have hself : opened.Owns (.classRef id) := hid
        have hless := room_pushed_lt (.classRef id) hfits
        rw [(hopened.pushed hself).evalWith_of_room_le (hless.le.trans hroom)]
      · rw [if_neg hfits, if_neg hfits]

/-- A class that `Run.declare` gives is denoted by its name, after those of its namespace. -/
theorem denotes_of_declare {scope : ClassId} {superclass : Option ClassId}
    (hscope : machine.classes.Denotes front (.classRef scope)) (hlt : scope < machine.classes.size)
    (hdeclare : Run.declare scope name superclass machine = .ok id opened) :
    opened.classes.Denotes (front ++ [name]) (.classRef id) := by
  rw [Run.declare_apply] at hdeclare
  cases hconstant : machine.classes.constant? scope name with
  | none =>
      rw [hconstant] at hdeclare
      cases hdeclare
      refine .member (hscope.of_grown (Hierarchy.grown_create _ hconstant)) ?_
      exact (Hierarchy.binds_create_iff hlt hconstant _).mpr (.inl ⟨rfl, rfl, rfl⟩)
  | some value =>
      rw [hconstant] at hdeclare
      cases value with
      | classRef known =>
          cases hdeclare
          exact .member hscope hconstant
      | nil => cases hdeclare
      | object known => cases hdeclare

/-- **When `openClass` has opened a class under a path, the path `Denotes` it**, also if finding the superclass has
    made other classes in the meantime. -/
theorem denotes_of_openClass (h : machine.WellFormed)
    (hopen : openClass (Node.qualifier front) name superclass machine = .ok id opened) :
    opened.classes.Denotes (front ++ [name]) (.classRef id) := by
  have hstart := h.traced "class-def"
  rw [openClass, Run.bind_apply, scopeFound] at hopen
  generalize machine.traced "class-def" = start at hstart hopen
  cases hscope : start.resolveScope front with
  | error fault =>
      rw [hscope] at hopen
      cases hopen
  | ok scope =>
      rw [hscope] at hopen
      have hdenotes := denotes_of_resolveScope hscope
      have hlt : scope < start.classes.size := hstart.owns_of_denotes hdenotes
      have hclasses : (start.tracedPath front.length).classes = start.classes :=
        eq_of_unrecorded_eq Machine.classes (fun _ => rfl) (unrecorded_tracedPath _ _)
      have hgrown := adds_progress.follow_within (ofSuperclass superclass) machine.room (start.tracedPath front.length)
      simp only [Query.outcome] at hopen
      rw [Run.bind_apply, evalSuperclass_eq_follow] at hopen
      rw [Run.after, Services.within] at hgrown
      rw [← hclasses] at hdenotes hlt
      generalize (ofSuperclass superclass).follow _ _ = outcome at hopen hgrown
      cases outcome with
      | error fault last => cases hopen
      | ok superclass last =>
          exact denotes_of_declare (hdenotes.of_grown hgrown.classes) (Nat.lt_of_lt_of_le hlt hgrown.classes.size) hopen

/-- When `openClass` has opened a class, the definition `Leads` to its body. -/
theorem leads_of_openClass (h : machine.WellFormed)
    (hopen : openClass scope name superclass machine = .ok id opened) (body : Node) :
    (ofNode (.classDef scope name superclass body)).Leads machine (.inFrame (.classRef id) (ofNode body)) opened := by
  have htrace : (Plan.change (.trace "class-def")).Ends machine (.ok () (machine.traced "class-def")) := by
    have hends : (Plan.change (.trace "class-def")).Ends machine ((Change.trace "class-def").run machine) :=
      .change trivial
    rw [Change.run_trace] at hends
    exact hends
  have hwithin := within_opening (wellFormed.basic (h.traced "class-def")) scope name superclass
  have hends : (opening scope name superclass).Ends (machine.traced "class-def") (.ok id opened) := by
    rw [ends_iff _ (h.traced "class-def") hwithin, room_traced, ← openClass_eq_follow, hopen]
  obtain ⟨_, _, hscope, hrest⟩ := hends.exists_of_andThen
  obtain ⟨_, _, hsuperclass, hdeclare⟩ := hrest.exists_of_andThen
  rw [ofNode]
  exact .next htrace (.next hscope (.next hsuperclass (.next hdeclare .here)))

theorem grown_popped (machine : Machine) : machine.Grown ClassEntry.Adds machine.popped := by
  have hsame := adds_progress.refl machine
  exact ⟨hsame.classes, hsame.heap⟩

/-- **Constants are found among those of each class on the path, and a class opened under a path stays there.**
    `eval` of a path gives what it `Denotes` and fails with what it `Misses` or with that to which it `Strays`; only
    the journal may change. Once `openClass` has opened a class under the path, the path gives that class ever after. -/
theorem constant_paths_resolve_through_own_tables {machine : Machine} (h : machine.Arises) (front : List String)
    (name : String) :
    (∀ value, (∃ last, eval (.path front name) machine = .ok value last)
      ↔ machine.classes.Denotes (front ++ [name]) value) ∧
    (∀ fault, (∃ last, eval (.path front name) machine = .error fault last)
      ↔ (∃ missing scope, machine.classes.Misses (front ++ [name]) missing scope
          ∧ fault = .unboundConstant missing (machine.classes.name scope))
        ∨ ∃ value, machine.classes.Strays (front ++ [name]) value
          ∧ fault = .wrongKind .aClass (machine.describe value)) ∧
    machine.classes.name ClassId.root = "Object" ∧
    ((eval (.path front name)).after machine).unrecorded = machine.unrecorded ∧
    (machine.settings.trace = false → (eval (.path front name)).after machine = machine) ∧
    ∀ superclass body,
      eval (.classDef (Node.qualifier front) name superclass body) machine
        = (openClass (Node.qualifier front) name superclass >>= fun id =>
            Run.inFrame (.classRef id) (eval body)) machine ∧
      ∀ id opened, openClass (Node.qualifier front) name superclass machine = .ok id opened →
        (ofNode (.classDef (Node.qualifier front) name superclass body)).Leads machine
          (.inFrame (.classRef id) (ofNode body)) opened ∧
        ∀ later, opened.Precedes later → ∃ last, eval (.path front name) later = .ok (.classRef id) last := by
  obtain ⟨hformed, htyped⟩ : typed.holds machine := typed_hosted.holds_of_arises h
  have hafter : (eval (.path front name)).after machine = machine.tracedPath (front.length + 1) := by
    rw [Run.after, eval_path]
    cases machine.resolve (front ++ [name]) <;> rfl
  refine ⟨?_, ?_, ?_, ?_, ?_, ?_⟩
  · intro value
    rw [← resolve_eq_ok_iff, eval_path]
    cases machine.resolve (front ++ [name]) <;> simp [Query.outcome]
  · intro fault
    rw [← resolve_eq_error_iff, eval_path]
    cases machine.resolve (front ++ [name]) <;> simp [Query.outcome]
  · exact (htyped.settled.links.entries ClassId.root (by decide)).name
  · rw [hafter, unrecorded_tracedPath]
  · intro htrace
    rw [hafter, tracedPath_of_not_trace htrace]
  · intro superclass body
    refine ⟨hformed.eval_classDef _ _ _ _, ?_⟩
    intro id opened hopen
    refine ⟨leads_of_openClass hformed hopen body, ?_⟩
    intro later hprecedes
    have hgrown := adds_progress.reaches_of_precedes adds_pushed grown_popped hprecedes
    have hdenotes := (denotes_of_openClass hformed hopen).of_grown hgrown.classes
    rw [eval_path, resolve_of_denotes hdenotes]
    exact ⟨_, rfl⟩

/-- Namespaces in one another, in one of which a host has bound (`Run.bindConstant`) something other than a class. -/
def hostBound : Machine :=
  (Run.bindConstant 5 "N" main).after nestedNamespaces

/-- A `Node.classDef` under a path, whose body fails. -/
def failingClass : Node :=
  .classDef (Node.qualifier ["A", "B"]) "D" (some (.path ["A"] "B")) (.path [] "Missing")

/-- The class of `failingClass` has been opened, and the body is still to come. -/
def failingOpened : Machine :=
  (openClass (Node.qualifier ["A", "B"]) "D" (some (.path ["A"] "B"))).after hostBound

theorem constant_paths_resolve_through_own_tables_nested :
    (hostBound.Arises
      ∧ hostBound.classes.Denotes ["A", "B", "C"] (.classRef 8) ∧ hostBound.classes.Misses ["A", "C", "B"] "C" 5
      ∧ hostBound.classes.Strays ["A", "N", "B"] main
      ∧ openClass (Node.qualifier ["A", "B"]) "D" (some (.path ["A"] "B")) hostBound = .ok 9 failingOpened
      ∧ failingOpened.Precedes ((run failingClass).after hostBound))
    ∧ (∃ last, eval (.path ["A", "B"] "C") hostBound = .ok (.classRef 8) last)
    ∧ (∃ last, eval (.path ["A", "C"] "B") hostBound = .error (.unboundConstant "C" "A") last)
    ∧ (∃ last, eval (.path ["A", "N"] "B") hostBound = .error (.wrongKind .aClass "an instance of Object") last)
    ∧ (∃ last, run failingClass hostBound = .error (.unboundConstant "Missing" "Object") last)
    ∧ ∃ last, eval (.path ["A", "B"] "D") ((run failingClass).after hostBound) = .ok (.classRef 9) last := by
  have hnested : nestedNamespaces.Reachable := .step (.boot {} (.kept "")) (.run _)
  have hscope : nestedNamespaces.Owns (.classRef 5) := by
    show 5 < nestedNamespaces.classes.size
    decide +kernel
  have hreach : hostBound.Reachable :=
    .step hnested (.bindConstant 5 "N" main hscope hnested.wellFormed.contained.main)
  have harises : hostBound.Arises := .during hreach (.eval (.sequence [])) (meets_self _ _)
  have hA : hostBound.classes.Denotes ([] ++ ["A"]) (.classRef 5) := .member .root (by decide +kernel)
  have hB : hostBound.classes.Denotes (["A"] ++ ["B"]) (.classRef 6) := .member hA (by decide +kernel)
  have hC : hostBound.classes.Denotes (["A", "B"] ++ ["C"]) (.classRef 8) := .member hB (by decide +kernel)
  have hN : hostBound.classes.Denotes (["A"] ++ ["N"]) main := .member hA (by decide +kernel)
  have hmisses : hostBound.classes.Misses ["A", "C", "B"] "C" 5 := ⟨["A"], ["B"], rfl, hA, by decide +kernel⟩
  have hstrays : hostBound.classes.Strays ["A", "N", "B"] main := ⟨["A", "N"], "B", [], rfl, hN, by simp [main]⟩
  have hopen : openClass (Node.qualifier ["A", "B"]) "D" (some (.path ["A"] "B")) hostBound = .ok 9 failingOpened :=
    Run.eq_ok_after (by decide +kernel)
  have hname : hostBound.classes.name 5 = "A" := by decide +kernel
  have hmain : hostBound.describe main = "an instance of Object" := by decide +kernel
  obtain ⟨hvalue, _⟩ := constant_paths_resolve_through_own_tables harises ["A", "B"] "C"
  obtain ⟨_, hmissing, _⟩ := constant_paths_resolve_through_own_tables harises ["A", "C"] "B"
  obtain ⟨_, hstraying, _⟩ := constant_paths_resolve_through_own_tables harises ["A", "N"] "B"
  obtain ⟨_, _, _, _, _, hclass⟩ := constant_paths_resolve_through_own_tables harises ["A", "B"] "D"
  obtain ⟨hleads, hlater⟩ := (hclass (some (.path ["A"] "B")) (.path [] "Missing")).2 9 _ hopen
  have hprecedes : failingOpened.Precedes ((run failingClass).after hostBound) :=
    .afterwards failingClass hreach (.atStart hleads) RunsTo.refl.occurs
  refine ⟨⟨harises, hC, hmisses, hstrays, hopen, hprecedes⟩, (hvalue _).mpr hC, ?_, ?_, ?_, hlater _ hprecedes⟩
  · exact (hmissing _).mpr (.inl ⟨"C", 5, hmisses, by rw [hname]⟩)
  · exact (hstraying _).mpr (.inr ⟨main, hstrays, by rw [hmain]⟩)
  · exact ⟨_, Run.eq_error_after (by decide +kernel)⟩

end Machine

end ObjectTalk
