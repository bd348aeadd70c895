import ObjectTalk.Proofs.Plan.Walk
/-!
# `Proofs.Plan.Regular` — where the plans of evaluation make frames

A frame is made for a call, between the events that begin and end the call, and for the body of a class
definition, after the definition has been recorded. The plans of nodes, of built-in methods and of texts make no
frames besides, and they do not stop by themselves because the stack is too deep. That is what `Plan.Regular`
says; statements about depth that hold for all of evaluation are proved by induction on it.
-/

namespace ObjectTalk

namespace Plan

/-- The plan makes frames in class definitions only, those of `Plan.call` apart. It is one that stands inside a class
    definition, whose beginning has been recorded, if `inside` is true. -/
inductive Regular : (inside : Bool) → {α : Type} → Plan α → Prop where
  | done {inside : Bool} {α : Type} {result : α} : Regular inside (.done result)
  | stop {inside : Bool} {α : Type} {fault : Fault} (hfault : fault.isOverflow = false) :
      Regular inside (.stop fault : Plan α)
  | query {inside : Bool} {α : Type} {question : Query α} : Regular inside (.query question)
  | change {inside : Bool} {α : Type} {step : Change α} : Regular inside (.change step)
  | andThen {inside : Bool} {α β : Type} {first : Plan α} {next : α → Plan β}
      (hfirst : Regular inside first) (hnext : ∀ result, Regular inside (next result)) :
      Regular inside (.andThen first next)
  | call {inside : Bool} {receiver : Value} {name : String} {method : Method} {args : List Value} :
      Regular inside (.call receiver name method args)
  | display {inside : Bool} {value : Value} : Regular inside (.display value)
  | classDef {inside : Bool} {α : Type} {next : Unit → Plan α} (hnext : Regular true (next ())) :
      Regular inside (.andThen (.change (.trace "class-def")) next)
  | classBody {α : Type} {self : Value} {body : Plan α} (hbody : Regular false body) :
      Regular true (.inFrame self body)

/-- Any `Regular` plan may stand inside a class definition. -/
theorem Regular.loosen {inside : Bool} {α : Type} {plan : Plan α} (h : plan.Regular inside) :
    plan.Regular true := by
  induction h with
  | done => exact .done
  | stop hfault => exact .stop hfault
  | query => exact .query
  | change => exact .change
  | andThen _ _ ihf ihn => exact .andThen ihf ihn
  | call => exact .call
  | display => exact .display
  | classDef hnext _ => exact .classDef hnext
  | classBody hbody _ => exact .classBody hbody

/-- **`Regular` is closed under the ways in which evaluation puts plans together**, whatever is known. -/
theorem regular_evaluates : Evaluates (fun _ => True) fun _ plan _ => plan.Regular false where
  done _ := .done
  andThen hfirst hnext :=
    .andThen hfirst fun result => hnext Set.univ (Set.subset_univ _) result (Shape.fits_univ _ result)
  send _ _ _ := .andThen .query fun _ => .call
  answerText _ := .query
  payload _ := .query
  display _ := .display
  stop _ hoverflow := .stop hoverflow
  query _ _ _ := .query
  change _ _ _ := .change
  onSelf hnext :=
    .andThen .query fun self => hnext Set.univ (Set.subset_univ _) self (Set.mem_univ self) trivial
  classDef _ hscope hsuper hbody := by
    refine .classDef (.andThen (hscope Set.univ (Set.subset_univ _)).loosen fun _ => ?_)
    refine .andThen (hsuper Set.univ (Set.subset_univ _)).loosen fun _ => ?_
    exact .andThen .change fun _ => .classBody (hbody Set.univ (Set.subset_univ _))

/-- The plan of a node is `Regular`. -/
theorem regular_ofNode (node : Node) : (ofNode node).Regular false :=
  regular_evaluates.ofNode node grounded_univ

/-- The plan of a message is `Regular`. -/
theorem regular_send (receiver : Value) (name : String) (args : List Value) :
    (send receiver name args).Regular false :=
  regular_evaluates.send name (Set.mem_univ receiver) fun _ _ => Set.mem_univ _

/-- **Within its frame, a method makes frames in class definitions only**: `Plan.invoke` is `Regular`. -/
theorem regular_invoke (receiver : Value) (name : String) (args : List Value) (method : Method) :
    (invoke receiver name args method).Regular false :=
  regular_evaluates.invoke name method grounded_univ (Set.mem_univ receiver) trivial fun _ _ => Set.mem_univ _

end Plan

end ObjectTalk
