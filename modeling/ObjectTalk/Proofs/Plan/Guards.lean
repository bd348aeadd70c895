import ObjectTalk.Proofs.Plan.Walk
/-!
# `Proofs.Plan.Guards` — what evaluation sees to before it acts

A few steps would go wrong with certain values: `nil` has no class and no instance variables, and the metaclass
is not to have instances made by a message. Evaluation does not take these steps blindly. The class of a receiver
is asked for only in a method that was called on it, an instance variable is bound only in the self of the
current frame, and an instance is made only of a class that has been compared with the metaclass.

`Plan.Guarded` says so of a plan, provided that the receiver for which it is made is not `nil` and that no self
is. All plans of evaluation are guarded (`guarded_evaluates`); that the two provisos are met is for the machine to
say.
-/

namespace ObjectTalk

namespace Plan

/-- What a plan may count on when it goes on with a result: that self is not `nil`. -/
def Answers : {α : Type} → Plan α → α → Prop
  | _, .query .self, value => value ≠ .nil
  | _, _, _ => True

/-- All questions and changes that come up in the plan are guarded (`Query.Guarded`, `Change.Guarded`), those of the
    methods it calls and of the texts it asks for apart, and it does not stop with an absurd fault by itself. -/
def Guarded : {α : Type} → Plan α → Prop
  | _, .stop fault => ¬ fault.Absurd
  | _, .query question => question.Guarded (· ≠ .nil)
  | _, .change step => step.Guarded (· ≠ .nil)
  | _, .andThen first next => first.Guarded ∧ ∀ result, first.Answers result → (next result).Guarded
  | _, .inFrame _ body => body.Guarded
  | _, .inCall _ body => body.Guarded
  | _, _ => True

/-- **`Guarded` is closed under the ways in which evaluation puts plans together.** Only in `onSelf` is it of use that
    self is not `nil`. -/
theorem guarded_evaluates : Evaluates (· ≠ .nil) fun _ plan _ => plan.Guarded where
  done _ := trivial
  andThen hfirst hnext :=
    ⟨hfirst, fun result _ => hnext Set.univ (Set.subset_univ _) result (Shape.fits_univ _ result)⟩
  send _ _ _ := ⟨trivial, fun _ _ => trivial⟩
  answerText _ := trivial
  payload _ := trivial
  display _ := trivial
  stop habsurd _ := habsurd
  query _ _ hguarded := hguarded
  change _ _ hguarded := hguarded
  onSelf hnext := ⟨trivial, fun self hself => hnext Set.univ (Set.subset_univ _) self (Set.mem_univ self) hself⟩
  classDef _ hscope hsuper hbody :=
    ⟨trivial, fun _ _ => ⟨hscope Set.univ (Set.subset_univ _), fun _ _ =>
      ⟨hsuper Set.univ (Set.subset_univ _), fun _ _ =>
        ⟨trivial, fun _ _ => hbody Set.univ (Set.subset_univ _)⟩⟩⟩⟩

/-- **A call on a receiver other than `nil` is `Guarded`.** -/
theorem guarded_called {receiver : Value} (hreceiver : receiver ≠ .nil) (name : String) (method : Method)
    (args : List Value) : (called receiver name method args).Guarded := by
  have hinvoke : (invoke receiver name args method).Guarded :=
    guarded_evaluates.invoke name method grounded_univ (Set.mem_univ receiver) hreceiver fun _ _ => Set.mem_univ _
  exact ⟨trivial, fun _ _ => hinvoke⟩

end Plan

end ObjectTalk
