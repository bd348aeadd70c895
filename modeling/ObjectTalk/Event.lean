import ObjectTalk.Fault
/-!
# `Event` — what a machine records of its work

The journal of a machine is a list of events, in the order in which they happened.
-/

namespace ObjectTalk

/-- Something that happened. -/
inductive Event where
  /-- A class was made. -/
  | classDefined (name superclass : String)
  /-- A class that was there already was opened. -/
  | classReopened (name : String)
  /-- A method was stored in a class. -/
  | methodDefined (owner method : String)
  /-- A node is about to be evaluated, at the given depth of the stack. -/
  | evaluating (kind : String) (depth : Nat)
  /-- A call of a method began. -/
  | entered (method : String)
  /-- A call of a method ended. -/
  | left (method : String)
  /-- A program was stopped by a fault. -/
  | aborted (fault : Fault)
deriving DecidableEq, Repr

/-- The event as a line of the journal. -/
def Event.line : Event → String
  | classDefined name superclass => "DEBUG defined class class=" ++ name ++ " superclass=" ++ superclass
  | classReopened name => "DEBUG reopened class class=" ++ name
  | methodDefined owner method => "DEBUG defined method class=" ++ owner ++ " method=" ++ method
  | evaluating kind depth => "TRACE eval kind=" ++ kind ++ " depth=" ++ toString depth
  | entered method => "ENTER call_method method=" ++ method
  | left method => "EXIT call_method method=" ++ method
  | aborted fault => "DEBUG run aborted error=" ++ fault.message

end ObjectTalk
