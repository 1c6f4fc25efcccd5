import NestApi.Common

namespace NestApi

/-- One entity-tag of an `If-Match` field. -/
structure ParsedEntityTag where
  weak : Bool
  opaqueTag : String
  version : Option Nat
  deriving DecidableEq

/-- What a request said about the version it expects to be modifying. -/
inductive ExpectedVersion where
  | unconditional
  | any
  | list (tags : List ParsedEntityTag)
  deriving DecidableEq

def formatEntityTag (version : Nat) : String := "\"" ++ toString version ++ "\""

def isSatisfiedBy (expected : ExpectedVersion) (actual : Nat) : Bool :=
  match expected with
  | .unconditional => true
  | .any => true
  | .list tags => tags.any fun tag => !tag.weak && tag.version == some actual

def describeMismatch (expected : ExpectedVersion) (actual : Nat) : String :=
  let current := "the resource is now at " ++ formatEntityTag actual
  match expected with
  | .list tags =>
    if tags.all fun tag => tag.weak then
      "If-Match precondition failed — a weak entity-tag never matches under the strong " ++
        "comparison If-Match requires, and " ++ current
    else
      let sent := tags.map fun tag =>
        (if tag.weak then "W/" else "") ++ "\"" ++ tag.opaqueTag ++ "\""
      "If-Match precondition failed — sent " ++ ", ".intercalate sent ++ ", but " ++ current
  | _ => "If-Match precondition failed — " ++ current

def requireConditional (expected : ExpectedVersion) : Except HttpException Unit :=
  match expected with
  | .unconditional => .error (.preconditionRequired
      ("If-Match is required on this endpoint. Read the resource first and send the ETag it " ++
        "returned."))
  | _ => .ok ()

/-- The largest version the column can hold: it is an `Int`, of four bytes. -/
def maxVersion : Nat := 2147483647

/-- The expected version as a filter of the write: `version IN (…)`, or none. -/
def versionPredicate : ExpectedVersion → Option (List Nat)
  | .list tags => some ((tags.filter fun tag => !tag.weak && tag.version.isSome).filterMap
      ParsedEntityTag.version)
  | _ => none

/-- Every version of the filter is one that the column can be compared with. -/
def fitsColumn (expected : ExpectedVersion) : Bool :=
  (versionPredicate expected).all fun versions => versions.all fun version => version ≤ maxVersion

/-- A statement with the filter finds a row at this version. It fails, whatever the row, when the
filter has a version past the column. -/
def finds (expected : ExpectedVersion) (version : Nat) : Bool :=
  fitsColumn expected && (versionPredicate expected).all fun versions => versions.contains version

variable {expected : ExpectedVersion}

theorem mem_versionPredicate {tags : List ParsedEntityTag} {version : Nat} :
    version ∈ (versionPredicate (.list tags)).getD [] ↔
      isSatisfiedBy (.list tags) version = true := by
  simp only [versionPredicate, Option.getD_some, isSatisfiedBy, List.mem_filterMap,
    List.mem_filter, List.any_eq_true, Bool.and_eq_true, Bool.not_eq_true',
    Option.isSome_iff_exists, beq_iff_eq]
  constructor
  · rintro ⟨tag, ⟨member, strong, _⟩, same⟩
    exact ⟨tag, member, strong, same⟩
  · rintro ⟨tag, member, strong, same⟩
    exact ⟨tag, ⟨member, strong, version, same⟩, same⟩

theorem finds_eq_true {version : Nat} : finds expected version = true ↔
    fitsColumn expected = true ∧ isSatisfiedBy expected version = true := by
  rw [finds, Bool.and_eq_true]
  apply and_congr_right
  intro _
  cases expected with
  | unconditional | any => exact iff_of_true rfl rfl
  | list => exact List.contains_iff_mem.trans mem_versionPredicate

/-- The check and the filter of the write agree on every version exactly when no strong tag names
one that the column cannot hold. -/
theorem finds_eq_isSatisfiedBy_iff :
    (∀ version, finds expected version = isSatisfiedBy expected version) ↔
      fitsColumn expected = true := by
  constructor
  · intro agree
    cases expected with
    | unconditional | any => rfl
    | list tags =>
      apply List.all_eq_true.mpr
      intro version listed
      have found := (agree version).trans (mem_versionPredicate.mp listed)
      exact List.all_eq_true.mp (finds_eq_true.mp found).1 version listed
  · intro fits version
    rw [Bool.eq_iff_iff, finds_eq_true]
    exact and_iff_right fits

end NestApi
