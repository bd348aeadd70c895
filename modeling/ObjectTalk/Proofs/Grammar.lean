import Mathlib.Data.List.Basic
import ObjectTalk.Node.OfJson
import ObjectTalk.Node.Wire
/-!
# `Proofs.Grammar` — which JSON values are programs

`Node.Encodes` is the grammar of written programs, one rule for each form: the twelve tagged arrays, of which the
class definition has two, and raw strings and integers that stand for literals. `Node.ofJson` reads exactly what
the grammar admits. Where it fails because of a tag that no node has, the tag stands at the head of an array in a
place where a node is expected (`Node.Unknown`).

What each function of the reader gives is stated once, by `Yields`, for both outcomes. An array is put together
from its parts by `Node.assemble`; so what has to be shown of an array is shown of `assemble`, for parts that are
read well, and the recursion on the JSON value adds nothing to it.
-/

namespace ObjectTalk

/-! ## The grammar -/

/-- The JSON value is a parameter list: `params`, then fixed parameters, and possibly one that takes what is left
    as the last. -/
inductive Signature.Encodes : Json → Signature → Prop where
  | fixed (names : List String) :
      Encodes (.array (.string "params" :: names.map fun name => .array [.string "fixed", .string name]))
        ⟨names, none⟩
  | rest (names : List String) (rest : String) :
      Encodes (.array (.string "params" :: (names.map fun name => .array [.string "fixed", .string name])
          ++ [.array [.string "rest", .string rest]]))
        ⟨names, some rest⟩

namespace Node

mutual

/-- The `Json` value is a written form of the `Node`. -/
inductive Encodes : Json → Node → Prop where
  | sequence {parts : List Json} {nodes : List Node} (hparts : EncodesAll parts nodes) :
      Encodes (.array (.string "sequence" :: parts)) (.sequence nodes)
  /-- The place of the superclass may be left out. -/
  | classDef {target body : Json} {scope : Option Node} {name : String} {node : Node}
      (htarget : Encodes target (.constRef scope name)) (hbody : Encodes body node) :
      Encodes (.array [.string "class-def", target, body]) (.classDef scope name none node)
  | classDefFrom {target parent body : Json} {scope superclass : Option Node} {name : String} {node : Node}
      (htarget : Encodes target (.constRef scope name)) (hparent : EncodesOptional parent superclass)
      (hbody : Encodes body node) :
      Encodes (.array [.string "class-def", target, parent, body]) (.classDef scope name superclass node)
  | methodDef {name : String} {params body : Json} {signature : Signature} {node : Node}
      (hparams : signature.Encodes params) (hbody : Encodes body node) :
      Encodes (.array [.string "method-def", .string name, params, body]) (.methodDef name signature node)
  | localAssign {name : String} {value : Json} {node : Node} (hvalue : Encodes value node) :
      Encodes (.array [.string "local-assign", .string name, value]) (.localAssign name node)
  | ivarAssign {name : String} {value : Json} {node : Node} (hvalue : Encodes value node) :
      Encodes (.array [.string "ivar-assign", .string name, value]) (.ivarAssign name node)
  | localRead (name : String) : Encodes (.array [.string "local-read", .string name]) (.localRead name)
  | ivarRead (name : String) : Encodes (.array [.string "ivar-read", .string name]) (.ivarRead name)
  | send {receiver : Json} {method : String} {args : List Json} {node : Option Node} {nodes : List Node}
      (hreceiver : EncodesOptional receiver node) (hargs : EncodesAll args nodes) :
      Encodes (.array (.string "send" :: receiver :: .string method :: args)) (.send node method nodes)
  | constRef {scope : Json} {name : String} {node : Option Node} (hscope : EncodesOptional scope node) :
      Encodes (.array [.string "const-ref", scope, .string name]) (.constRef node name)
  | stringLit (text : String) : Encodes (.array [.string "string-literal", .string text]) (.stringLit text)
  /-- The number is one of 64 bits with a sign. -/
  | integerLit (value : Int64) :
      Encodes (.array [.string "integer-literal", .integer value.toInt]) (.integerLit value)
  | interpolated {parts : List Json} {nodes : List Node} (hparts : EncodesAll parts nodes) :
      Encodes (.array (.string "interpolated-string" :: parts)) (.interpolated nodes)
  | rawString (text : String) : Encodes (.string text) (.stringLit text)
  | rawInteger (value : Int64) : Encodes (.integer value.toInt) (.integerLit value)

/-- The `Json` values are written forms of the nodes, one by one: each one `Encodes` its node. -/
inductive EncodesAll : List Json → List Node → Prop where
  | nil : EncodesAll [] []
  | cons {json : Json} {node : Node} {jsons : List Json} {nodes : List Node} (h : Encodes json node)
      (hmore : EncodesAll jsons nodes) : EncodesAll (json :: jsons) (node :: nodes)

/-- The JSON value is `null` where there is no node, and else a written form of it. -/
inductive EncodesOptional : Json → Option Node → Prop where
  | absent : EncodesOptional .null none
  | present {json : Json} {node : Node} (h : Encodes json node) : EncodesOptional json (some node)

end

/-- `Node.ofJson` expects a node where the first value stands in the second, a tagged array. -/
inductive PartOf : Json → Json → Prop where
  | statement {parts : List Json} {part : Json} (h : part ∈ parts) :
      PartOf part (.array (.string "sequence" :: parts))
  | target (target body : Json) : PartOf target (.array [.string "class-def", target, body])
  | body (target body : Json) : PartOf body (.array [.string "class-def", target, body])
  | targetFrom (target parent body : Json) : PartOf target (.array [.string "class-def", target, parent, body])
  | parent (target parent body : Json) : PartOf parent (.array [.string "class-def", target, parent, body])
  | bodyFrom (target parent body : Json) : PartOf body (.array [.string "class-def", target, parent, body])
  | methodBody (name params body : Json) : PartOf body (.array [.string "method-def", name, params, body])
  | localValue (name value : Json) : PartOf value (.array [.string "local-assign", name, value])
  | ivarValue (name value : Json) : PartOf value (.array [.string "ivar-assign", name, value])
  | receiver (receiver method : Json) (args : List Json) :
      PartOf receiver (.array (.string "send" :: receiver :: method :: args))
  | arg {receiver method : Json} {args : List Json} {arg : Json} (h : arg ∈ args) :
      PartOf arg (.array (.string "send" :: receiver :: method :: args))
  | scope (scope name : Json) : PartOf scope (.array [.string "const-ref", scope, name])
  | piece {parts : List Json} {part : Json} (h : part ∈ parts) :
      PartOf part (.array (.string "interpolated-string" :: parts))

/-- A node is expected where the first value stands in the second: there itself, or further in, by `PartOf`. -/
inductive At (inner : Json) : Json → Prop where
  | here : At inner inner
  | within {part json : Json} (hpart : PartOf part json) (h : At inner part) : At inner json

/-- The tag is at the head of an array where a node is expected (`At`), and no node has it. -/
def Unknown (json : Json) (kind : String) : Prop :=
  kind ∉ kinds ∧ ∃ parts, At (.array (.string kind :: parts)) json

theorem Unknown.within {part json : Json} {kind : String} (hpart : PartOf part json) (h : Unknown part kind) :
    Unknown json kind := by
  obtain ⟨hkind, parts, hat⟩ := h
  exact ⟨hkind, parts, .within hpart hat⟩

end Node

/-! ## What reading yields -/

/-- What is read fits, and a tag for which reading fails with `TreeError.unknownKind` is one of those expected. -/
structure Yields {α : Type} (result : Except TreeError α) (Fits : α → Prop) (Expected : String → Prop) :
    Prop where
  fits : ∀ value, result = .ok value → Fits value
  expected : ∀ kind, result = .error (.unknownKind kind) → Expected kind

namespace Yields

variable {α β : Type} {Fits : α → Prop} {Expected : String → Prop}

theorem ok {value : α} (h : Fits value) : Yields (.ok value) Fits Expected where
  fits _ heq := Except.ok.inj heq ▸ h
  expected _ heq := nomatch heq

theorem illFormed (kind : String) (flaw : Flaw) : Yields (.error (.illFormed kind flaw)) Fits Expected where
  fits _ heq := nomatch heq
  expected _ heq := nomatch heq

theorem unknownKind {kind : String} (h : Expected kind) : Yields (.error (.unknownKind kind)) Fits Expected where
  fits _ heq := nomatch heq
  expected _ heq := TreeError.unknownKind.inj (Except.error.inj heq) ▸ h

theorem mono {result : Except TreeError α} {Fits' : α → Prop} {Expected' : String → Prop}
    (h : Yields result Fits Expected) (hfits : ∀ value, Fits value → Fits' value)
    (hexpected : ∀ kind, Expected kind → Expected' kind) : Yields result Fits' Expected' where
  fits value heq := hfits value (h.fits value heq)
  expected kind heq := hexpected kind (h.expected kind heq)

/-- What is read first may fail on a tag too. -/
theorem bind {first : Except TreeError α} {next : α → Except TreeError β} {Fits' : β → Prop}
    {Expected' : String → Prop} (hfirst : Yields first Fits Expected)
    (hexpected : ∀ kind, Expected kind → Expected' kind)
    (hnext : ∀ value, Fits value → Yields (next value) Fits' Expected') :
    Yields (first >>= next) Fits' Expected' := by
  cases first with
  | ok value => exact hnext value (hfirst.fits value rfl)
  | error error =>
      refine ⟨fun _ heq => (nomatch heq), fun kind heq => hexpected kind (hfirst.expected kind ?_)⟩
      cases heq
      rfl

/-- What is read first has no tag to fail on, so it `Yields` whatever tags are expected after it. -/
theorem bind_untagged {first : Except TreeError α} {next : α → Except TreeError β} {Fits' : β → Prop}
    (hfirst : Yields first Fits fun _ => False) (hnext : ∀ value, Fits value → Yields (next value) Fits' Expected) :
    Yields (first >>= next) Fits' Expected :=
  hfirst.bind (fun _ => False.elim) hnext

end Yields

/-! ## Names, parameters and numbers -/

theorem nameIn_yields (kind : String) (json : Json) :
    Yields (nameIn kind json) (fun name => json = .string name) fun _ => False := by
  unfold nameIn
  split
  · exact .ok rfl
  · exact .illFormed _ _

theorem Param.ofJson_wire (param : Param) : Param.ofJson param.wire = .ok param := by
  cases param <;> rfl

theorem Param.ofJson_yields (json : Json) :
    Yields (Param.ofJson json) (fun param => json = param.wire) fun _ => False := by
  unfold Param.ofJson
  split
  · refine (nameIn_yields _ _).bind_untagged fun name hname => ?_
    rw [hname]
    split
    · exact .ok rfl
    · exact .ok rfl
    · exact .illFormed _ _
  · exact .illFormed _ _
  · exact .illFormed _ _

theorem Param.listOfJson_wire (params : List Param) :
    Param.listOfJson (params.map Param.wire) = .ok params := by
  induction params with
  | nil => rfl
  | cons param params ih =>
      rw [List.map_cons, Param.listOfJson, Param.ofJson_wire, ih]
      rfl

theorem Param.listOfJson_yields (entries : List Json) :
    Yields (Param.listOfJson entries) (fun params => entries = params.map Param.wire) fun _ => False := by
  induction entries with
  | nil => exact .ok rfl
  | cons entry entries ih =>
      refine (Param.ofJson_yields entry).bind_untagged fun param hparam => ?_
      refine ih.bind_untagged fun params hparams => .ok ?_
      rw [hparam, hparams, List.map_cons]

namespace Signature

/-- What `collect?` makes of written parameters has these parameters. -/
theorem params_of_collect? {params : List Param} {signature : Signature}
    (h : collect? params = some signature) : signature.params = params := by
  induction params using collect?.induct generalizing signature with
  | case1 =>
      cases h
      rfl
  | case2 name =>
      cases h
      rfl
  | case3 => cases h
  | case4 name more ih =>
      obtain ⟨inner, hinner, heq⟩ := Option.map_eq_some_iff.mp h
      cases heq
      have hparams := ih hinner
      show Param.fixed name :: inner.params = _
      rw [hparams]

theorem collect?_params (names : List String) (rest : Option String) :
    collect? (params ⟨names, rest⟩) = some ⟨names, rest⟩ := by
  induction names with
  | nil => cases rest <;> rfl
  | cons name names ih =>
      show (collect? (params ⟨names, rest⟩)).map _ = _
      rw [ih]
      rfl

/-- A `Signature` has at most one parameter that takes what is left. -/
theorem countP_params (signature : Signature) : signature.params.countP Param.isRest ≤ 1 := by
  obtain ⟨names, rest⟩ := signature
  have hfixed : (names.map Param.fixed).countP Param.isRest = 0 := by
    rw [List.countP_eq_zero]
    intro param hparam
    obtain ⟨name, _, rfl⟩ := List.mem_map.mp hparam
    exact Bool.false_ne_true
  rw [params, List.countP_append, hfixed, Nat.zero_add]
  cases rest with
  | none => exact Nat.zero_le 1
  | some name => exact Nat.le_refl 1

theorem ofParams_params (signature : Signature) : ofParams signature.params = .ok signature := by
  have hcount : ¬ 1 < signature.params.countP Param.isRest := Nat.not_lt_of_le signature.countP_params
  have hcollect : collect? signature.params = some signature := collect?_params signature.fixed signature.rest
  rw [ofParams, if_neg hcount, hcollect]

theorem params_of_ofParams {params : List Param} {signature : Signature}
    (h : ofParams params = .ok signature) : signature.params = params := by
  unfold ofParams at h
  split at h
  · cases h
  · split at h
    · rename_i found hfound
      cases h
      exact params_of_collect? hfound
    · cases h

/-- `Signature.wire` is a parameter list of the grammar, and there is no other for the signature. -/
theorem encodes_iff_eq_wire {json : Json} {signature : Signature} :
    signature.Encodes json ↔ json = signature.wire := by
  have hmap : ∀ names : List String, (names.map Param.fixed).map Param.wire
      = names.map fun name => .array [.string "fixed", .string name] := fun names => List.map_map
  constructor
  · rintro (names | ⟨names, rest⟩)
    · rw [wire, params, List.map_append, hmap]
      simp
    · rw [wire, params, List.map_append, hmap]
      rfl
  · rintro rfl
    obtain ⟨names, rest⟩ := signature
    rw [wire, params, List.map_append, hmap]
    cases rest with
    | none =>
        show Encodes (.array (.string "params" :: (_ ++ []))) _
        rw [List.append_nil]
        exact .fixed names
    | some name => exact .rest names name

theorem ofJson_wire (signature : Signature) : ofJson signature.wire = .ok signature := by
  rw [wire, ofJson, Param.listOfJson_wire]
  show ofList signature.params = _
  rw [ofList, ofParams_params]

/-- A parameter list that `Signature.ofJson` reads is in the grammar; it has no tags to fail on. -/
theorem ofJson_yields (json : Json) :
    Yields (ofJson json) (fun signature => signature.Encodes json) fun _ => False := by
  unfold ofJson
  split
  · refine (Param.listOfJson_yields _).bind_untagged fun params hparams => ?_
    unfold ofList
    split
    · rename_i signature hsignature
      refine .ok (encodes_iff_eq_wire.mpr ?_)
      rw [wire, params_of_ofParams hsignature, hparams]
    · exact .illFormed _ _
  · exact .illFormed _ _
  · exact .illFormed _ _
  · exact .illFormed _ _

end Signature

/-- `Json.int64?` reads just the integers of 64 bits. -/
theorem Json.int64?_eq_some_iff {json : Json} {value : Int64} :
    json.int64? = some value ↔ json = .integer value.toInt := by
  constructor
  · intro h
    unfold Json.int64? at h
    split at h
    · rename_i number
      split at h
      · rename_i hrange
        cases h
        rw [Int64.toInt_minValue, Int64.toInt_maxValue] at hrange
        rw [Int64.toInt_ofInt_of_le hrange.1 (Int.lt_of_le_sub_one hrange.2)]
      · cases h
    · cases h
  · rintro rfl
    rw [Json.int64?, if_pos ⟨value.minValue_le_toInt, value.toInt_le⟩, Int64.ofInt_toInt]

theorem Json.string?_eq_some_iff {json : Json} {text : String} : json.string? = some text ↔ json = .string text := by
  constructor
  · intro h
    cases json <;> cases h
    rfl
  · rintro rfl
    rfl

/-! ## What is read is in the grammar -/

namespace Node

/-- The part was read well (`Yields`): as a node that it `Encodes`, or it fails on a tag that is `Unknown` in it. -/
def Part.Faithful (part : Part) : Prop := Yields part.node (Encodes part.json) (Unknown part.json)

theorem nodesOf_yields {parts : List Part} (hparts : ∀ part ∈ parts, part.Faithful) :
    Yields (nodesOf parts) (EncodesAll (parts.map Part.json))
      fun kind => ∃ json ∈ parts.map Part.json, Unknown json kind := by
  induction parts with
  | nil => exact .ok .nil
  | cons part parts ih =>
      obtain ⟨hpart, hmore⟩ := List.forall_mem_cons.mp hparts
      refine hpart.bind (fun kind hkind => ⟨part.json, List.mem_cons_self, hkind⟩) fun node hnode => ?_
      refine (ih hmore).bind ?_ fun nodes hnodes => .ok (.cons hnode hnodes)
      rintro kind ⟨json, hjson, hkind⟩
      exact ⟨json, List.mem_cons_of_mem _ hjson, hkind⟩

theorem Part.Faithful.optional_yields {part : Part} (hpart : part.Faithful) :
    Yields part.optional (EncodesOptional part.json) (Unknown part.json) := by
  unfold Part.optional
  split
  · rename_i hnull
    rw [hnull]
    exact .ok .absent
  · show Yields (part.node >>= fun node => .ok (some node)) _ _
    exact hpart.bind (fun _ => id) fun node hnode => .ok (.present hnode)

/-- What `assemble` makes of the parts under the tag is a node that the array encodes, or it fails on a tag that is
    in it. -/
def Assembles (kind : String) (parts : List Part) : Prop :=
  Yields (assemble kind parts) (Encodes (.array (.string kind :: parts.map Part.json)))
    (Unknown (.array (.string kind :: parts.map Part.json)))

/-! ### One form at a time -/

section Forms

variable {parts args : List Part} {target parent body name params value receiver method scope payload : Part}

theorem assembles_sequence (hparts : ∀ part ∈ parts, part.Faithful) : Assembles "sequence" parts := by
  refine (nodesOf_yields hparts).bind ?_ fun nodes hnodes => .ok (.sequence hnodes)
  exact fun unknown ⟨json, hjson, h⟩ => h.within (.statement hjson)

theorem assembles_interpolated (hparts : ∀ part ∈ parts, part.Faithful) : Assembles "interpolated-string" parts := by
  refine (nodesOf_yields hparts).bind ?_ fun nodes hnodes => .ok (.interpolated hnodes)
  exact fun unknown ⟨json, hjson, h⟩ => h.within (.piece hjson)

/-- The target of a class definition, in `assembleClass`, is a constant. -/
theorem assembleClass_yields (superclass : Option Node) (htarget : target.Faithful) (hbody : body.Faithful) :
    Yields (assembleClass target superclass body)
      (fun node => ∃ scope name inner, Encodes target.json (.constRef scope name) ∧ Encodes body.json inner
        ∧ node = .classDef scope name superclass inner)
      fun kind => Unknown target.json kind ∨ Unknown body.json kind := by
  refine htarget.bind (fun _ => .inl) fun found hfound => ?_
  split
  · exact hbody.bind (fun _ => .inr) fun inner hinner => .ok ⟨_, _, inner, hfound, hinner, rfl⟩
  · exact .illFormed _ _

/-- A class definition without the place of the superclass. -/
theorem assembles_classDef (htarget : target.Faithful) (hbody : body.Faithful) :
    Assembles "class-def" [target, body] := by
  refine (assembleClass_yields none htarget hbody).mono ?_ ?_
  · rintro node ⟨scope, name, inner, hscope, hinner, rfl⟩
    exact .classDef hscope hinner
  · rintro unknown (h | h)
    · exact h.within (.target target.json body.json)
    · exact h.within (.body target.json body.json)

/-- A class definition with the place of the superclass, which is read first. -/
theorem assembles_classDefFrom (htarget : target.Faithful) (hparent : parent.Faithful) (hbody : body.Faithful) :
    Assembles "class-def" [target, parent, body] := by
  refine hparent.optional_yields.bind (fun unknown h => h.within (.parent target.json parent.json body.json))
    fun superclass hsuperclass => ?_
  refine (assembleClass_yields superclass htarget hbody).mono ?_ ?_
  · rintro node ⟨scope, name, inner, hscope, hinner, rfl⟩
    exact .classDefFrom hscope hsuperclass hinner
  · rintro unknown (h | h)
    · exact h.within (.targetFrom target.json parent.json body.json)
    · exact h.within (.bodyFrom target.json parent.json body.json)

theorem assembles_methodDef (hbody : body.Faithful) : Assembles "method-def" [name, params, body] := by
  refine (nameIn_yields _ name.json).bind_untagged fun text hname => ?_
  refine (Signature.ofJson_yields params.json).bind_untagged fun signature hparams => ?_
  refine hbody.bind (fun unknown h => h.within (.methodBody name.json params.json body.json))
    fun node hnode => .ok ?_
  simp only [List.map_cons, List.map_nil, hname]
  exact .methodDef hparams hnode

/-- A node that gives a value to a name, whatever the name is of. -/
theorem assign_yields {kind : String} {make : String → Node → Node}
    (hmake : ∀ {text : String} {json : Json} {node : Node}, Encodes json node →
      Encodes (.array [.string kind, .string text, json]) (make text node))
    (hplace : PartOf value.json (.array [.string kind, name.json, value.json])) (hvalue : value.Faithful) :
    Yields (do return make (← nameIn kind name.json) (← value.node))
      (Encodes (.array [.string kind, name.json, value.json]))
      (Unknown (.array [.string kind, name.json, value.json])) := by
  refine (nameIn_yields kind name.json).bind_untagged fun text hname => ?_
  refine hvalue.bind (fun unknown h => h.within hplace) fun node hnode => .ok ?_
  rw [hname]
  exact hmake hnode

/-- A node that is only a name, whatever the name is of. -/
theorem read_yields {kind : String} {make : String → Node}
    (hmake : ∀ text, Encodes (.array [.string kind, .string text]) (make text)) :
    Yields (do return make (← nameIn kind name.json)) (Encodes (.array [.string kind, name.json]))
      (Unknown (.array [.string kind, name.json])) := by
  refine (nameIn_yields kind name.json).bind_untagged fun text hname => .ok ?_
  rw [hname]
  exact hmake text

theorem assembles_send (hreceiver : receiver.Faithful) (hargs : ∀ part ∈ args, part.Faithful) :
    Assembles "send" (receiver :: method :: args) := by
  refine hreceiver.optional_yields.bind
    (fun unknown h => h.within (.receiver receiver.json method.json (args.map Part.json))) fun found hfound => ?_
  refine (nameIn_yields _ method.json).bind_untagged fun text hname => ?_
  refine (nodesOf_yields hargs).bind ?_ fun nodes hnodes => .ok ?_
  · exact fun unknown ⟨json, hjson, h⟩ => h.within (.arg hjson)
  · simp only [List.map_cons, hname]
    exact .send hfound hnodes

theorem assembles_constRef (hscope : scope.Faithful) : Assembles "const-ref" [scope, name] := by
  refine hscope.optional_yields.bind (fun unknown h => h.within (.scope scope.json name.json))
    fun found hfound => ?_
  refine (nameIn_yields _ name.json).bind_untagged fun text hname => .ok ?_
  simp only [List.map_cons, List.map_nil, hname]
  exact .constRef hfound

theorem stringLit_yields {text : String} (h : payload.json.string? = some text) :
    Yields (.ok (.stringLit text)) (Encodes (.array [.string "string-literal", payload.json]))
      (Unknown (.array [.string "string-literal", payload.json])) := by
  rw [Json.string?_eq_some_iff.mp h]
  exact .ok (.stringLit text)

theorem integerLit_yields {value : Int64} (h : payload.json.int64? = some value) :
    Yields (.ok (.integerLit value)) (Encodes (.array [.string "integer-literal", payload.json]))
      (Unknown (.array [.string "integer-literal", payload.json])) := by
  rw [Json.int64?_eq_some_iff.mp h]
  exact .ok (.integerLit value)

end Forms

/-- **What is put together from parts that were read well is read well**: `Assembles`, whatever the tag. Each form
    has its number of parts. -/
theorem assembles {kind : String} {parts : List Part} (hparts : ∀ part ∈ parts, part.Faithful) :
    Assembles kind parts := by
  unfold Assembles
  fun_cases assemble kind parts with
  | case1 => exact assembles_sequence hparts
  | case2 target body => exact assembles_classDef (hparts target (by simp)) (hparts body (by simp))
  | case3 target parent body =>
      exact assembles_classDefFrom (hparts target (by simp)) (hparts parent (by simp)) (hparts body (by simp))
  | case5 name params body => exact assembles_methodDef (hparts body (by simp))
  | case7 name value => exact assign_yields .localAssign (.localValue name.json value.json) (hparts value (by simp))
  | case9 name value => exact assign_yields .ivarAssign (.ivarValue name.json value.json) (hparts value (by simp))
  | case11 => exact read_yields .localRead
  | case13 => exact read_yields .ivarRead
  | case15 receiver method args =>
      exact assembles_send (hparts receiver (by simp)) fun part hpart => hparts part (by simp [hpart])
  | case17 scope name => exact assembles_constRef (hparts scope (by simp))
  | case19 payload text htext => exact stringLit_yields htext
  | case22 payload value hvalue => exact integerLit_yields hvalue
  | case25 => exact assembles_interpolated hparts
  | case26 =>
      -- the tag is none of those that were tried
      refine .unknownKind ⟨?_, _, .here⟩
      simp only [kinds, List.mem_cons, List.not_mem_nil, or_false, not_or]
      exact ⟨‹_›, ‹_›, ‹_›, ‹_›, ‹_›, ‹_›, ‹_›, ‹_›, ‹_›, ‹_›, ‹_›, ‹_›⟩
  -- the number of parts is wrong, or a literal holds something else
  | _ => exact .illFormed _ _

theorem map_json_partsOfJson (jsons : List Json) : (partsOfJson jsons).map Part.json = jsons := by
  induction jsons with
  | nil => rw [partsOfJson, List.map_nil]
  | cons json jsons ih => rw [partsOfJson, List.map_cons, ih]

theorem literalNumber_yields (json : Json) : Yields (literalNumber json) (Encodes json) (Unknown json) := by
  unfold literalNumber
  split
  · rename_i value hvalue
    rw [Json.int64?_eq_some_iff.mp hvalue]
    exact .ok (.rawInteger value)
  · exact .illFormed _ _

mutual

/-- **What `ofJson` reads is in the grammar**, and the tags it fails on are `Unknown`. -/
theorem ofJson_yields : (json : Json) → Yields (ofJson json) (Encodes json) (Unknown json)
  | .array (.string kind :: parts) => by
      have hparts : Assembles kind (partsOfJson parts) := assembles (faithful_of_mem_partsOfJson parts)
      rwa [Assembles, map_json_partsOfJson] at hparts
  | .array (.null :: _) => .illFormed _ _
  | .array (.bool _ :: _) => .illFormed _ _
  | .array (.integer _ :: _) => .illFormed _ _
  | .array (.float _ :: _) => .illFormed _ _
  | .array (.array _ :: _) => .illFormed _ _
  | .array (.object _ :: _) => .illFormed _ _
  | .array [] => .illFormed _ _
  | .string text => .ok (.rawString text)
  | .integer value => literalNumber_yields (.integer value)
  | .float value => literalNumber_yields (.float value)
  | .null => .illFormed _ _
  | .bool _ => .illFormed _ _
  | .object _ => .illFormed _ _

theorem faithful_of_mem_partsOfJson : (jsons : List Json) → ∀ part ∈ partsOfJson jsons, part.Faithful
  | [], part, hpart => by
      rw [partsOfJson] at hpart
      exact absurd hpart List.not_mem_nil
  | json :: jsons, part, hpart => by
      rw [partsOfJson] at hpart
      rcases List.mem_cons.mp hpart with rfl | hmore
      · exact ofJson_yields json
      · exact faithful_of_mem_partsOfJson jsons part hmore

end

/-! ## What is in the grammar is read -/

mutual

/-- **What `Encodes` a node is read by `ofJson` as that node.** -/
theorem ofJson_of_encodes {json : Json} {node : Node} : Encodes json node → ofJson json = .ok node
  | .sequence hparts => by
      rw [ofJson, assemble, nodesOf_of_encodesAll hparts]
      rfl
  | .classDef htarget hbody => by
      simp only [ofJson, partsOfJson, assemble, assembleClass]
      rw [ofJson_of_encodes htarget, ofJson_of_encodes hbody]
      rfl
  | .classDefFrom htarget hparent hbody => by
      simp only [ofJson, partsOfJson, assemble, assembleClass]
      rw [ofJson_of_encodes htarget, optional_of_encodesOptional hparent, ofJson_of_encodes hbody]
      rfl
  | .methodDef hparams hbody => by
      simp only [ofJson, partsOfJson, assemble]
      rw [Signature.encodes_iff_eq_wire.mp hparams, Signature.ofJson_wire, ofJson_of_encodes hbody]
      rfl
  | .localAssign hvalue => by
      simp only [ofJson, partsOfJson, assemble]
      rw [ofJson_of_encodes hvalue]
      rfl
  | .ivarAssign hvalue => by
      simp only [ofJson, partsOfJson, assemble]
      rw [ofJson_of_encodes hvalue]
      rfl
  | .localRead name => by
      simp only [ofJson, partsOfJson, assemble]
      rfl
  | .ivarRead name => by
      simp only [ofJson, partsOfJson, assemble]
      rfl
  | .send hreceiver hargs => by
      simp only [ofJson, partsOfJson, assemble]
      rw [optional_of_encodesOptional hreceiver, nodesOf_of_encodesAll hargs]
      rfl
  | .constRef hscope => by
      simp only [ofJson, partsOfJson, assemble]
      rw [optional_of_encodesOptional hscope]
      rfl
  | .stringLit text => by
      simp only [ofJson, partsOfJson, assemble]
      rfl
  | .integerLit value => by
      simp only [ofJson, partsOfJson, assemble]
      rw [Json.int64?_eq_some_iff.mpr rfl]
  | .interpolated hparts => by
      rw [ofJson, assemble, nodesOf_of_encodesAll hparts]
      rfl
  | .rawString text => by rw [ofJson]
  | .rawInteger value => by rw [ofJson, literalNumber, Json.int64?_eq_some_iff.mpr rfl]

theorem nodesOf_of_encodesAll {jsons : List Json} {nodes : List Node} :
    EncodesAll jsons nodes → nodesOf (partsOfJson jsons) = .ok nodes
  | .nil => by
      rw [partsOfJson]
      rfl
  | .cons h hmore => by
      rw [partsOfJson, nodesOf, ofJson_of_encodes h, nodesOf_of_encodesAll hmore]
      rfl

theorem optional_of_encodesOptional {json : Json} {node : Option Node} :
    EncodesOptional json node → Part.optional ⟨json, ofJson json⟩ = .ok node
  | .absent => rfl
  | .present h => by
      unfold Part.optional
      split
      · -- no node is written as `null`
        rename_i hnull
        rw [show json = .null from hnull] at h
        cases h
      · show (ofJson json).map some = _
        rw [ofJson_of_encodes h]
        rfl

end

theorem head?_of_encodes {items : List Json} {node : Node} (h : Encodes (.array items) node) :
    items.head? = some (.string node.kind) := by
  cases h <;> rfl

/-- **Reading accepts exactly the grammar.** `ofJson` reads a JSON value as a node if and only if it `Encodes` the
    node, and an array that is read has the kind of the node for its tag. Where reading fails on an unknown tag, no
    node has the tag, and it is the tag of an array where a node is expected (`Unknown`). -/
theorem read_exactly_the_grammar (json : Json) :
    (∀ node, ofJson json = .ok node ↔ Encodes json node)
      ∧ (∀ node items, ofJson json = .ok node → json = .array items → items.head? = some (.string node.kind))
      ∧ (∀ kind, ofJson json = .error (.unknownKind kind) → Unknown json kind) := by
  have hread := ofJson_yields json
  refine ⟨fun node => ⟨hread.fits node, ofJson_of_encodes⟩, fun node items h hitems => ?_, hread.expected⟩
  subst hitems
  exact head?_of_encodes (hread.fits node h)

/-- A `class-def` whose body is a raw number, without the place of a superclass. -/
def shortClass : Json :=
  .array [.string "class-def", .array [.string "const-ref", .null, .string "Point"], .integer (-7)]

/-- A `class-def` whose body prints a node that there is not, `while`. -/
def classWithLoop : Json :=
  .array [.string "class-def", .array [.string "const-ref", .null, .string "Point"], .null,
    .array [.string "send", .null, .string "puts", .string "hello", .array [.string "while", .integer 1]]]

/-- `shortClass` is read and in the grammar; `classWithLoop` fails on the tag inside it. -/
theorem read_exactly_the_grammar_class :
    Encodes shortClass (.classDef none "Point" none (.integerLit (-7)))
      ∧ (∃ items, shortClass = .array items ∧ items.head? = some (.string "class-def"))
      ∧ ofJson classWithLoop = .error (.unknownKind "while") ∧ Unknown classWithLoop "while" := by
  have hshort : ofJson shortClass = .ok (.classDef none "Point" none (.integerLit (-7))) := by rfl
  have hloop : ofJson classWithLoop = .error (.unknownKind "while") := by rfl
  obtain ⟨hiff, hhead, _⟩ := read_exactly_the_grammar shortClass
  obtain ⟨_, _, hunknown⟩ := read_exactly_the_grammar classWithLoop
  exact ⟨(hiff _).mp hshort, ⟨_, rfl, hhead _ _ hshort rfl⟩, hloop, hunknown _ hloop⟩

end Node

end ObjectTalk
