import Mathlib.Data.List.Forall2
import NestApi.Utf16

/- Redaction of the fields of a log event. The values of a record are a graph: containers have an
identity, and may be shared or contain themselves. -/
namespace NestApi.Logging

open Utf16

section Allowlist

abbrev Path := List Utf16

def arraySegment : Utf16 := ofString "[]"

def wildcardSegment : Utf16 := ofString "*"

def childPath (parent : Path) (key : Utf16) : Path := parent ++ [key]

def elementPath (parent : Path) : Path := parent ++ [arraySegment]

def matchesPattern (path pattern : Path) : Bool :=
  path.length = pattern.length && (pattern.zip path).all fun (segment, own) =>
    if segment = wildcardSegment then own ≠ arraySegment else segment = own

/-- A dotted part from its end: the name, and how many pairs of brackets follow it. -/
def stripBrackets : Utf16 → Utf16 × Nat
  | 0x5D :: 0x5B :: rest => ((stripBrackets rest).1, (stripBrackets rest).2 + 1)
  | name => (name.reverse, 0)

def parsePart (part : Utf16) : Option Path :=
  let (name, depth) := stripBrackets part.reverse
  if name = [] ∨ 0x5B ∈ name ∨ 0x5D ∈ name then none
  else some (name :: List.replicate depth arraySegment)

def parsePattern (pattern : Utf16) : Option Path :=
  if pattern = [] ∨ trim pattern ≠ pattern then none
  else ((pattern.splitOn 0x2E).mapM parsePart).map List.flatten

structure RedactionAllowlist where
  patterns : List Utf16
  admits : Path → Bool

def compileAllowlist (patterns : List Utf16) : RedactionAllowlist where
  patterns := patterns.filter fun pattern => (parsePattern pattern).isSome
  admits path := ((patterns.filterMap parsePattern).filter (·.length = path.length)).any
    (matchesPattern path)

end Allowlist

/-- A value that is not walked into. Of a date only its ISO form is read, which an invalid one does
not have. -/
inductive Leaf (N D : Type) where
  | str (text : Utf16)
  | num (value : N)
  | bool (value : Bool)
  | bigint (value : Int)
  | date (iso : Option Utf16)
  | other (data : D)

inductive Value (ι N D : Type) where
  | null
  | undefined
  | leaf (leaf : Leaf N D)
  | object (id : ι)

/-- An array, whose holes are none, or a plain record. -/
inductive Node (ι N D : Type) where
  | array (elements : List (Option (Value ι N D)))
  | record (entries : List (Utf16 × Value ι N D))

/-- A redacted value; a record is what is assigned to a fresh one, in order. -/
inductive Redacted (N : Type) where
  | null
  | undefined
  | text (text : Utf16)
  | num (value : N)
  | bool (value : Bool)
  | array (elements : List (Option (Redacted N)))
  | record (entries : List (Utf16 × Redacted N))

section Redact

variable {ι N D : Type} [DecidableEq ι] (scrubSecrets : Utf16 → Utf16)
  (allowlist : RedactionAllowlist) (heap : ι → Node ι N D)

def maxDepth : Nat := 8

def maxNodes : Nat := 512

def Redacted.redacted : Redacted N := .text (ofString "[redacted]")

def Redacted.truncated : Redacted N := .text (ofString "[truncated]")

def shown : Leaf N D → Option (Redacted N)
  | .str text => some (.text (scrubSecrets text))
  | .num value => some (.num value)
  | .bool value => some (.bool value)
  | .bigint value => some (.text (ofString (toString value)))
  | .date iso => iso.map .text
  | .other _ => some .redacted

def visit {α β : Type} (redact : α → Nat → Option (β × Nat)) : List α → Nat →
    Option (List β × Nat)
  | [], nodes => some ([], nodes)
  | item :: rest, nodes =>
    (redact item nodes).bind fun (out, nodes) =>
      (visit redact rest nodes).map fun (outs, nodes) => (out :: outs, nodes)

/-- `left` is how many segments the path may still get: the path is too deep when there are none. -/
def redactValue : Nat → Value ι N D → Path → List ι → Nat → Option (Redacted N × Nat)
  | left, value, path, seen, nodes =>
    if nodes = 0 then some (.truncated, nodes)
    else
      let nodes := nodes - 1
      match value, left with
      | .null, _ => some (.null, nodes)
      | .undefined, _ => some (.undefined, nodes)
      | _, 0 => some (.truncated, nodes)
      | .object id, left + 1 =>
        if id ∈ seen then some (.truncated, nodes)
        else
          match heap id with
          | .array elements =>
            (visit (fun element nodes => match element with
              | none => some (none, nodes)
              | some value =>
                (redactValue left value (elementPath path) (id :: seen) nodes).map
                  fun (out, nodes) => (some out, nodes)) elements nodes).map
              fun (outs, nodes) => (.array outs, nodes)
          | .record entries =>
            (visit (fun (key, value) nodes =>
              (redactValue left value (childPath path key) (id :: seen) nodes).map
                fun (out, nodes) => ((key, out), nodes)) entries nodes).map
              fun (outs, nodes) => (.record outs, nodes)
      | .leaf leaf, _ + 1 =>
        if !allowlist.admits path then some (.redacted, nodes)
        else (shown scrubSecrets leaf).map fun out => (out, nodes)

def redactRecord (fields : List (Utf16 × Value ι N D)) : Option (List (Utf16 × Redacted N)) :=
  (visit (fun (key, value) nodes =>
    (redactValue scrubSecrets allowlist heap maxDepth value [key] [] nodes).map
      fun (out, nodes) => ((key, out), nodes)) fields maxNodes).map Prod.fst

end Redact

section SameShape

variable {ι κ N D : Type} (paired : ι → κ → Prop)

/-- Values that differ at most in a leaf or in what a container has inside. -/
inductive Alike : Value ι N D → Value κ N D → Prop where
  | null : Alike .null .null
  | undefined : Alike .undefined .undefined
  | leaf (first second : Leaf N D) : Alike (.leaf first) (.leaf second)
  | object {i k} (same : paired i k) : Alike (.object i) (.object k)

def AlikeEntries (first : List (Utf16 × Value ι N D)) (second : List (Utf16 × Value κ N D)) :
    Prop :=
  List.Forall₂ (fun entry other => entry.1 = other.1 ∧ Alike paired entry.2 other.2) first second

inductive AlikeNode : Node ι N D → Node κ N D → Prop where
  | array {first second} (same : List.Forall₂ (Option.Rel (Alike paired)) first second) :
      AlikeNode (.array first) (.array second)
  | record {first second}
      (same : AlikeEntries paired first second) : AlikeNode (.record first) (.record second)

variable (heap : ι → Node ι N D) (other : κ → Node κ N D) (fields : List (Utf16 × Value ι N D))
  (others : List (Utf16 × Value κ N D))

/-- Two records of one shape. Their containers are paired one to one, so that they share and contain
themselves alike. -/
structure SameShape : Prop where
  unique : Relator.BiUnique paired
  nodes : ∀ i k, paired i k → AlikeNode paired (heap i) (other k)
  fields : AlikeEntries paired fields others

inductive Addressed : Path → Value ι N D → Value κ N D → Prop where
  | field {key key' value value'}
      (listed : ((key, value), (key', value')) ∈ fields.zip others) : Addressed [key] value value'
  | element {path i k elements elements' value value'}
      (parent : Addressed path (.object i) (.object k)) (first : heap i = .array elements)
      (second : other k = .array elements')
      (listed : (some value, some value') ∈ elements.zip elements') :
      Addressed (elementPath path) value value'
  | child {path i k entries entries' key key' value value'} (parent : Addressed path (.object i)
      (.object k))
      (first : heap i = .record entries) (second : other k = .record entries')
      (listed : ((key, value), (key', value')) ∈ entries.zip entries') :
      Addressed (childPath path key) value value'

end SameShape

section Noninterference

variable {ι κ N D : Type} {scrubSecrets : Utf16 → Utf16} {allowlist : RedactionAllowlist}
  {paired : ι → κ → Prop} {heap : ι → Node ι N D} {other : κ → Node κ N D}
  {fields : List (Utf16 × Value ι N D)} {others : List (Utf16 × Value κ N D)}

theorem visit_eq {α α' β : Type} {f : α → Nat → Option (β × Nat)} {g : α' → Nat → Option (β × Nat)}
    {items : List α} {items' : List α'}
    (same : List.Forall₂ (fun item item' => ∀ nodes, f item nodes = g item' nodes) items items')
    (nodes : Nat) : visit f items nodes = visit g items' nodes := by
  induction same generalizing nodes with
  | nil => rfl
  | cons head _ ih => simp only [visit, head, ih]

theorem mem_seen_iff (unique : Relator.BiUnique paired) {i : ι} {k : κ} (same : paired i k)
    {seen : List ι} {seen' : List κ} (ancestors : List.Forall₂ paired seen seen') :
    i ∈ seen ↔ k ∈ seen' := by
  induction ancestors with
  | nil => simp
  | @cons j l _ _ head _ ih =>
    have first : i = j ↔ k = l := by
      constructor
      · rintro rfl
        exact unique.2 same head
      · rintro rfl
        exact unique.1 same head
    rw [List.mem_cons, List.mem_cons, first, ih]

variable [DecidableEq ι] [DecidableEq κ]

/-- Both walks go the same way, spend the same budget and print the same. -/
theorem redactValue_eq (shape : SameShape paired heap other fields others)
    (agree : ∀ path first second, allowlist.admits path = true →
      Addressed heap other fields others path (.leaf first) (.leaf second) → first = second)
    (left : Nat) : ∀ {value value' path seen seen'}, Alike paired value value' →
      Addressed heap other fields others path value value' → List.Forall₂ paired seen seen' →
      ∀ nodes, redactValue scrubSecrets allowlist heap left value path seen nodes =
        redactValue scrubSecrets allowlist other left value' path seen' nodes := by
  induction left with
  | zero =>
    intro value value' path seen seen' alike _ _ nodes
    unfold redactValue
    cases alike <;> rfl
  | succ left ih =>
    intro value value' path seen seen' alike addressed ancestors nodes
    unfold redactValue
    by_cases spent : nodes = 0
    · rw [if_pos spent, if_pos spent]
    rw [if_neg spent, if_neg spent]
    cases alike with
    | null => rfl
    | undefined => rfl
    | leaf first second =>
      cases admitted : allowlist.admits path with
      | false => rfl
      | true => rw [agree path first second admitted addressed]
    | @object i k same =>
      have within : List.Forall₂ paired (i :: seen) (k :: seen') := .cons same ancestors
      have cycle := mem_seen_iff shape.unique same ancestors
      dsimp only
      by_cases found : k ∈ seen'
      · rw [if_pos found, if_pos (cycle.mpr found)]
      rw [if_neg found, if_neg (mt cycle.mp found)]
      have node := shape.nodes i k same
      generalize first : heap i = own at node ⊢
      generalize second : other k = twin at node ⊢
      cases node with
      | array elements =>
        dsimp only
        rw [visit_eq (List.forall₂_iff_zip.mpr ⟨elements.length_eq, ?_⟩)]
        intro item item' listed nodes
        cases List.forall₂_iff_zip.mp elements |>.2 listed with
        | none => rfl
        | some alike =>
          dsimp only
          rw [ih alike (.element addressed first second listed) within]
      | record entries =>
        dsimp only
        rw [visit_eq (List.forall₂_iff_zip.mpr ⟨entries.length_eq, ?_⟩)]
        rintro ⟨key, value⟩ ⟨key', value'⟩ listed nodes
        obtain ⟨rfl, alike⟩ := (List.forall₂_iff_zip.mp entries).2 listed
        dsimp only
        rw [ih alike (.child addressed first second listed) within]

/-- Records of one shape that agree on every leaf at an admitted address are redacted to the same.
-/
theorem redact_noninterference (patterns : List Utf16)
    (shape : SameShape paired heap other fields others)
    (agree : ∀ path first second, (compileAllowlist patterns).admits path = true →
      Addressed heap other fields others path (.leaf first) (.leaf second) → first = second) :
    redactRecord scrubSecrets (compileAllowlist patterns) heap fields =
      redactRecord scrubSecrets (compileAllowlist patterns) other others := by
  unfold redactRecord
  rw [visit_eq (List.forall₂_iff_zip.mpr ⟨shape.fields.length_eq, ?_⟩)]
  rintro ⟨key, value⟩ ⟨key', value'⟩ listed nodes
  obtain ⟨rfl, alike⟩ := (List.forall₂_iff_zip.mp shape.fields).2 listed
  dsimp only
  rw [redactValue_eq shape agree maxDepth alike (.field listed) .nil]

/-- A user that refers to itself, next to a count that is logged. -/
def account (password : Leaf Nat Unit) : Unit → Node Unit Nat Unit := fun _ =>
  .record [(ofString "password", .leaf password), (ofString "self", .object ())]

def accountFields : List (Utf16 × Value Unit Nat Unit) :=
  [(ofString "count", .leaf (.num 3)), (ofString "user", .object ())]

theorem redact_noninterference_account :
    redactRecord id (compileAllowlist [ofString "count"])
        (account (.str (ofString "hunter2"))) accountFields =
      redactRecord id (compileAllowlist [ofString "count"]) (account (.bool true))
        accountFields := by
  have shape : SameShape (fun _ _ => True) (account (.str (ofString "hunter2")))
      (account (.bool true)) accountFields accountFields :=
    ⟨⟨fun _ _ _ _ _ => rfl, fun _ _ _ _ _ => rfl⟩,
      fun _ _ _ => .record (.cons ⟨rfl, .leaf _ _⟩ (.cons ⟨rfl, .object trivial⟩ .nil)),
      .cons ⟨rfl, .leaf _ _⟩ (.cons ⟨rfl, .object trivial⟩ .nil)⟩
  have top : ∀ path, (compileAllowlist [ofString "count"]).admits path = true →
      path.length = 1 := by
    have parsed : parsePattern (ofString "count") = some [ofString "count"] := by
      decide +kernel
    intro path admitted
    have long : 1 = path.length := by
      by_contra other
      simp [compileAllowlist, parsed, other] at admitted
    exact long.symm
  refine redact_noninterference _ shape ?_
  intro path first second admitted addressed
  have one := top path admitted
  have deep : ∀ {path v w}, Addressed (account (.str (ofString "hunter2")))
      (account (.bool true)) accountFields accountFields path v w → path ≠ [] := by
    intro path v w addressed
    cases addressed <;> simp [elementPath, childPath]
  cases addressed with
  | field listed =>
    simp [accountFields] at listed
    rw [listed.1.2, listed.2.2]
  | element parent =>
    have below := List.length_pos_of_ne_nil (deep parent)
    simp only [elementPath, List.length_append, List.length_singleton] at one
    omega
  | child parent =>
    have below := List.length_pos_of_ne_nil (deep parent)
    simp only [childPath, List.length_append, List.length_singleton] at one
    omega

end Noninterference

end NestApi.Logging
