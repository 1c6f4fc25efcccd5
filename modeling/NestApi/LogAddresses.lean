import NestApi.LogRedaction

namespace NestApi.Logging

open Utf16

inductive Step where
  | key (name : Utf16)
  | element

def Step.segment : Step → Utf16
  | .key name => name
  | .element => arraySegment

def Step.NamedBy (segment : Utf16) : Step → Prop
  | .element => segment = arraySegment
  | .key name => segment ≠ arraySegment ∧ (segment = wildcardSegment ∨ segment = name)

def Names (pattern : Path) (address : List Step) : Prop :=
  List.Forall₂ Step.NamedBy pattern address

section Reach

variable {ι N D : Type} (heap : ι → Node ι N D)

/-- A leaf inside a value, with the steps to it, and what stands in its place in the output. -/
inductive Reaches : Value ι N D → Redacted N → List Step → Redacted N → Prop where
  | leaf {leaf out} : Reaches (.leaf leaf) out [] out
  | element {id elements outs value out last steps}
      (node : heap id = .array elements) (listed : (some value, some out) ∈ elements.zip outs)
      (more : Reaches value out steps last) :
      Reaches (.object id) (.array outs) (.element :: steps) last
  | child {id entries outs key key' value out last steps}
      (node : heap id = .record entries) (listed : ((key, value), (key', out)) ∈ entries.zip outs)
      (more : Reaches value out steps last) :
      Reaches (.object id) (.record outs) (.key key :: steps) last

end Reach

/-- No leaf is shown whose address no accepted pattern names. -/
def OnlyNamed {ι N D : Type} [DecidableEq ι] (scrubSecrets : Utf16 → Utf16)
    (patterns : List Utf16) (heap : ι → Node ι N D) (fields : List (Utf16 × Value ι N D)) : Prop :=
  ∀ outs key key' value out steps last,
    redactRecord scrubSecrets (compileAllowlist patterns) heap fields = some outs →
    ((key, value), (key', out)) ∈ fields.zip outs → Reaches heap value out steps last →
    last ≠ .redacted → last ≠ .truncated →
    ∃ pattern ∈ patterns.filterMap parsePattern, Names pattern (.key key :: steps)

section Patterns

theorem head_parsePattern {text : Utf16} {pattern : Path}
    (parsed : parsePattern text = some pattern) : pattern.head? ≠ some arraySegment := by
  unfold parsePattern at parsed
  split at parsed
  · cases parsed
  · obtain ⟨parts, each, rfl⟩ := Option.map_eq_some_iff.mp parsed
    cases split : text.splitOn 0x2E with
    | nil => exact absurd split (List.splitOn_ne_nil _ _)
    | cons =>
      rw [split, List.mapM_cons] at each
      obtain ⟨first, own, each⟩ := Option.bind_eq_some_iff.mp each
      obtain ⟨others, _, same⟩ := Option.bind_eq_some_iff.mp each
      cases same
      unfold parsePart at own
      dsimp only at own
      split_ifs at own with bad
      cases own
      simp only [List.flatten_cons, List.cons_append, List.head?_cons, ne_eq, Option.some.injEq]
      intro bracket
      rw [bracket] at bad
      exact bad (by decide)

theorem namedBy_of_match {segment : Utf16} {step : Step}
    (plain : step = .key arraySegment → segment ≠ arraySegment)
    (fits : if segment = wildcardSegment then step.segment ≠ arraySegment
      else segment = step.segment) : step.NamedBy segment := by
  by_cases wild : segment = wildcardSegment
  · rw [if_pos wild] at fits
    cases step with
    | key => exact ⟨by rw [wild]; decide, .inl wild⟩
    | element => exact absurd rfl fits
  · rw [if_neg wild] at fits
    cases step with
    | key name =>
      refine ⟨fun brackets => ?_, .inr fits⟩
      have same : name = arraySegment := fits.symm.trans brackets
      exact plain (congrArg Step.key same) brackets
    | element => exact fits

theorem names_of_matches {pattern : Path} {address : List Step}
    (plain : ∀ segment, (segment, Step.key arraySegment) ∈ pattern.zip address →
      segment ≠ arraySegment)
    (matched : matchesPattern (address.map Step.segment) pattern = true) :
    Names pattern address := by
  simp only [matchesPattern, Bool.and_eq_true, decide_eq_true_eq, List.length_map,
    List.all_eq_true, List.zip_map_right, List.forall_mem_map, Prod.forall] at matched
  refine List.forall₂_iff_zip.mpr ⟨matched.1.symm, ?_⟩
  intro segment step listed
  have fits := matched.2 segment step listed
  refine namedBy_of_match (fun same => plain segment (same ▸ listed)) ?_
  simpa using fits

end Patterns

section Walk

variable {ι N D : Type} [DecidableEq ι] {scrubSecrets : Utf16 → Utf16}
  {allowlist : RedactionAllowlist} {heap : ι → Node ι N D}

theorem visit_mem {α β : Type} {redact : α → Nat → Option (β × Nat)} {items : List α}
    {outs : List β} {nodes nodes' : Nat} (visited : visit redact items nodes = some (outs, nodes'))
    {item : α} {out : β} (listed : (item, out) ∈ items.zip outs) :
    ∃ before after, redact item before = some (out, after) := by
  induction items generalizing outs nodes with
  | nil => simp at listed
  | cons first rest ih =>
    rw [visit] at visited
    obtain ⟨⟨own, next⟩, here, visited⟩ := Option.bind_eq_some_iff.mp visited
    obtain ⟨⟨others, last⟩, later, same⟩ := Option.map_eq_some_iff.mp visited
    cases same
    rcases List.mem_cons.mp listed with same | listed
    · cases same
      exact ⟨nodes, next, here⟩
    · exact ih later listed

theorem admits_of_shown (left : Nat) : ∀ {value path seen nodes nodes' out last steps},
    redactValue scrubSecrets allowlist heap left value path seen nodes = some (out, nodes') →
    Reaches heap value out steps last → last ≠ .redacted → last ≠ .truncated →
    allowlist.admits (path ++ steps.map Step.segment) = true := by
  induction left with
  | zero =>
    intro value path seen nodes nodes' out last steps redacted reaches shown whole
    unfold redactValue at redacted
    cases reaches with
    | leaf =>
      split at redacted
      · cases redacted
        exact absurd rfl whole
      · cases redacted
        exact absurd rfl whole
    | element | child => split at redacted <;> cases redacted
  | succ left ih =>
    intro value path seen nodes nodes' out last steps redacted reaches shown whole
    unfold redactValue at redacted
    split at redacted
    · cases reaches with
      | leaf =>
        cases redacted
        exact absurd rfl whole
      | element | child => cases redacted
    cases reaches with
    | leaf =>
      cases admitted : allowlist.admits path with
      | true => simpa using admitted
      | false =>
        simp only [admitted] at redacted
        cases redacted
        exact absurd rfl shown
    | element node listed more | child node listed more =>
      dsimp only at redacted
      split at redacted
      · cases redacted
      · rw [node] at redacted
        obtain ⟨⟨outs, last⟩, visited, same⟩ := Option.map_eq_some_iff.mp redacted
        cases same
        obtain ⟨before, after, own⟩ := visit_mem visited listed
        obtain ⟨_, walked, same⟩ := Option.map_eq_some_iff.mp own
        cases same
        have admitted := ih walked more shown whole
        simpa [elementPath, childPath, Step.segment] using admitted

omit [DecidableEq ι] in
theorem key_of_reaches {value : Value ι N D} {out last : Redacted N} {steps : List Step}
    (reaches : Reaches heap value out steps last) {name : Utf16} (listed : .key name ∈ steps) :
    ∃ id entries, heap id = .record entries ∧ name ∈ entries.map Prod.fst := by
  induction reaches with
  | leaf => cases listed
  | element node _ _ ih =>
    rcases List.mem_cons.mp listed with wrong | later
    · cases wrong
    · exact ih later
  | child node mem _ ih =>
    rcases List.mem_cons.mp listed with same | later
    · cases same
      exact ⟨_, _, node, List.mem_map_of_mem (List.of_mem_zip mem).1⟩
    · exact ih later

end Walk

section Brackets

def bracketsNode : Unit → Node Unit Nat Unit := fun _ => .record [(arraySegment, .leaf (.num 7))]

def bracketsFields : List (Utf16 × Value Unit Nat Unit) := [(ofString "items", .object ())]

theorem redactRecord_brackets :
    redactRecord id (compileAllowlist [ofString "items[]"]) bracketsNode bracketsFields =
      some [(ofString "items", .record [(arraySegment, .num 7)])] := by
  have admitted : (compileAllowlist [ofString "items[]"]).admits
      [ofString "items", arraySegment] = true := by decide +kernel
  have below : childPath [ofString "items"] arraySegment = [ofString "items", arraySegment] := rfl
  simp [redactRecord, bracketsFields, visit, redactValue, maxNodes, maxDepth, bracketsNode, below,
    admitted, shown]

theorem not_names_brackets : ∀ pattern ∈ [ofString "items[]"].filterMap parsePattern,
    ¬ Names pattern [.key (ofString "items"), .key arraySegment] := by
  have parsed : [ofString "items[]"].filterMap parsePattern =
      [[ofString "items", arraySegment]] := by decide +kernel
  rw [parsed, List.forall_mem_singleton]
  intro names
  cases names with
  | cons _ rest =>
    cases rest with
    | cons brackets => exact brackets.1 rfl

end Brackets

/-- Redaction shows leaves at named addresses alone, for every record and allowlist, exactly if no
object has brackets for a key. -/
theorem only_named_iff (keys : Set Utf16) :
    (∀ (ι N D : Type) (_ : DecidableEq ι) (scrubSecrets : Utf16 → Utf16) (patterns : List Utf16)
      (heap : ι → Node ι N D) (fields : List (Utf16 × Value ι N D)),
      (∀ id entries, heap id = .record entries → ∀ key ∈ entries.map Prod.fst, key ∈ keys) →
        OnlyNamed scrubSecrets patterns heap fields) ↔ ofString "[]" ∉ keys := by
  constructor
  · intro only brackets
    have within : ∀ id entries, bracketsNode id = .record entries →
        ∀ key ∈ entries.map Prod.fst, key ∈ keys := by
      intro id entries node key listed
      cases node
      rw [List.map_singleton, List.mem_singleton] at listed
      exact listed ▸ brackets
    obtain ⟨pattern, accepted, names⟩ := only Unit Nat Unit inferInstance id
      [ofString "items[]"] bracketsNode bracketsFields within _ _ _ _ _ _ _
      redactRecord_brackets List.mem_cons_self (.child rfl List.mem_cons_self .leaf) nofun nofun
    exact not_names_brackets pattern accepted names
  · intro absent ι N D _ scrubSecrets patterns heap fields within outs key key' value out steps
      last redacted listed reaches shown whole
    unfold redactRecord at redacted
    obtain ⟨⟨all, left⟩, visited, same⟩ := Option.map_eq_some_iff.mp redacted
    cases same
    obtain ⟨before, after, own⟩ := visit_mem visited listed
    obtain ⟨_, walked, same⟩ := Option.map_eq_some_iff.mp own
    cases same
    have admitted := admits_of_shown maxDepth walked reaches shown whole
    obtain ⟨pattern, accepted, matched⟩ := List.any_eq_true.mp admitted
    have accepted := (List.mem_filter.mp accepted).1
    refine ⟨pattern, accepted, names_of_matches ?_ matched⟩
    obtain ⟨text, _, parsed⟩ := List.mem_filterMap.mp accepted
    intro segment mem
    cases pattern with
    | nil => cases mem
    | cons =>
      rcases List.mem_cons.mp mem with same | later
      · cases same
        intro wrong
        exact head_parsePattern parsed (congrArg some wrong)
      · obtain ⟨id, entries, node, key⟩ := key_of_reaches reaches (List.of_mem_zip later).2
        exact absurd (within id entries node _ key) absent

/-- The number under the key `[]` is shown by a pattern for the elements of an array. -/
theorem brackets_shown :
    redactRecord id (compileAllowlist [ofString "items[]"]) bracketsNode bracketsFields =
      some [(ofString "items", .record [(arraySegment, .num 7)])] ∧
    ∀ pattern ∈ [ofString "items[]"].filterMap parsePattern,
      ¬ Names pattern [.key (ofString "items"), .key arraySegment] :=
  ⟨redactRecord_brackets, not_names_brackets⟩

end NestApi.Logging
