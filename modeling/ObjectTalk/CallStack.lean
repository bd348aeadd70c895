import ObjectTalk.Value
/-!
# `CallStack` — frames

Each call and each class body has a frame: its self and its local variables. The bottom frame belongs to
the top level and is never taken away, so there is always a current frame. Evaluation sees the current
frame only.
-/

namespace ObjectTalk

/-- A self with its local variables. -/
structure Frame where
  self : Value
  locals : Table Value := {}
deriving Inhabited

/-- The frames of a machine. Each call asks how deep the stack is, so the number of frames is kept. -/
structure CallStack where
  /-- The frame of the top level. -/
  bottom : Frame
  /-- The frames above it, the current one first. -/
  above : List Frame
  /-- The number of frames. -/
  depth : Nat
  depth_eq : depth = above.length + 1

namespace CallStack

/-- The stack of a machine at the top level. -/
def ofBottom (bottom : Frame) : CallStack := ⟨bottom, [], 1, rfl⟩

instance : Inhabited CallStack := ⟨ofBottom default⟩

/-- The frames determine the stack. -/
theorem eq_of_frames {left right : CallStack} (bottom : left.bottom = right.bottom)
    (above : left.above = right.above) : left = right := by
  obtain ⟨_, _, _, rfl⟩ := left
  obtain ⟨_, _, _, rfl⟩ := right
  cases bottom
  cases above
  rfl

/-- Whether the bottom frame is the current one. -/
def atTopLevel (stack : CallStack) : Bool := stack.above.isEmpty

/-- The current frame. -/
def current (stack : CallStack) : Frame := stack.above.headD stack.bottom

/-- Put a new frame on top. -/
def push (stack : CallStack) (self : Value) : CallStack where
  bottom := stack.bottom
  above := { self } :: stack.above
  depth := stack.depth + 1
  depth_eq := by simp [stack.depth_eq]

/-- Take the current frame away, unless it is the bottom frame. -/
def pop : CallStack → CallStack
  | ⟨bottom, [], depth, depth_eq⟩ => ⟨bottom, [], depth, depth_eq⟩
  | ⟨bottom, _ :: below, depth, depth_eq⟩ => ⟨bottom, below, depth - 1, by simp [depth_eq]⟩

/-- Bind a local variable of the current frame. -/
def bindLocal (name : String) (value : Value) : CallStack → CallStack
  | ⟨bottom, [], depth, depth_eq⟩ =>
    ⟨{ bottom with locals := bottom.locals.set name value }, [], depth, depth_eq⟩
  | ⟨bottom, frame :: below, depth, depth_eq⟩ =>
    ⟨bottom, { frame with locals := frame.locals.set name value } :: below, depth, depth_eq⟩

@[simp] theorem depth_push (stack : CallStack) (self : Value) :
    (stack.push self).depth = stack.depth + 1 := rfl

@[simp] theorem pop_push (stack : CallStack) (self : Value) : (stack.push self).pop = stack := rfl

@[simp] theorem above_pop (stack : CallStack) : stack.pop.above = stack.above.tail := by
  unfold pop
  split <;> rfl

@[simp] theorem bottom_pop (stack : CallStack) : stack.pop.bottom = stack.bottom := by
  unfold pop
  split <;> rfl

@[simp] theorem current_push (stack : CallStack) (self : Value) :
    (stack.push self).current = { self } := rfl

@[simp] theorem depth_bindLocal (name : String) (value : Value) (stack : CallStack) :
    (stack.bindLocal name value).depth = stack.depth := by
  unfold bindLocal
  split <;> rfl

theorem current_bindLocal (name : String) (value : Value) (stack : CallStack) :
    (stack.bindLocal name value).current
      = { stack.current with locals := stack.current.locals.set name value } := by
  unfold bindLocal
  split <;> rfl

end CallStack

end ObjectTalk
