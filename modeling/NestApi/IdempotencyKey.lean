import NestApi.Utf16

namespace NestApi.Idempotency

def maxKeyLength : Nat := 255

def isPrintable (c : Char) : Bool := 0x20 ≤ c.toNat && c.toNat ≤ 0x7e

/-- Whether a header value is a key: not blank, not too long, and printable. -/
def isValidKey (key : String) : Bool :=
  0 < (Utf16.ofString (JsString.trim key)).length && (Utf16.ofString key).length ≤ maxKeyLength &&
    (!key.toList.isEmpty && key.toList.all isPrintable)

structure CallerRequest where
  /-- `req.user`, with its `id`. -/
  user : Option (Option String)
  ip : Option String
  deriving DecidableEq

def callerScope (req : CallerRequest) : String :=
  match JsString.given req.user.join with
  | some id => "user:" ++ id
  | none => "ip:" ++ req.ip.getD "unknown"

def storeKey (scope key : String) : String := scope ++ ":" ++ key

def numeral (leading : List Nat) (last : Nat) : List Char :=
  ((leading.dropWhile fun digit => digit = 0) ++ [last]).map Nat.digitChar

def decimalByte (byte : UInt8) : List Char :=
  numeral [byte.toNat / 100, byte.toNat / 10 % 10] (byte.toNat % 10)

def hexGroup (bits : UInt16) : List Char :=
  numeral [bits.toNat / 4096, bits.toNat / 256 % 16, bits.toNat / 16 % 16] (bits.toNat % 16)

structure Quad where
  first : UInt8
  second : UInt8
  third : UInt8
  fourth : UInt8
  deriving DecidableEq

def Quad.text (quad : Quad) : List Char :=
  decimalByte quad.first ++ '.' :: decimalByte quad.second ++ '.' :: decimalByte quad.third ++
    '.' :: decimalByte quad.fourth

/-- What stands between the colons of an IPv6 address. -/
inductive Piece where
  | group (bits : UInt16)
  | dotted (quad : Quad)
  deriving DecidableEq

namespace Piece

def text : Piece → List Char
  | group bits => hexGroup bits
  | dotted quad => quad.text

def width : Piece → Nat
  | group _ => 1
  | dotted _ => 2

def isGroup : Piece → Bool
  | group _ => true
  | dotted _ => false

end Piece

def joined : List Piece → List Char
  | [] => []
  | [piece] => piece.text
  | piece :: rest => piece.text ++ ':' :: joined rest

/-- A client address as it is written: IPv4, and IPv6 in full or with a run of zeros left out, with
its last four bytes dotted or not. -/
inductive ClientAddress where
  | v4 (quad : Quad)
  | full (pieces : List Piece) (eight : (pieces.map Piece.width).sum = 8)
      (last : pieces.dropLast.all Piece.isGroup = true)
  | short (left right : List Piece) (fewer : ((left ++ right).map Piece.width).sum ≤ 7)
      (last : left.all Piece.isGroup = true ∧ right.dropLast.all Piece.isGroup = true)

def ClientAddress.text : ClientAddress → String
  | v4 quad => String.ofList quad.text
  | full pieces _ _ => String.ofList (joined pieces)
  | short left right _ _ => String.ofList (joined left ++ ':' :: ':' :: joined right)

inductive Caller where
  | user (id : String)
  | anonymous (address : String)
  deriving DecidableEq

/-- A request is a caller's: it carries a user id without colons, or none and comes from an
address. -/
inductive ComesFrom : CallerRequest → Caller → Prop where
  | user (id : String) (ip : Option String) (given : id ≠ "") (plain : ':' ∉ id.toList) :
      ComesFrom ⟨some (some id), ip⟩ (.user id)
  | anonymous (user : Option (Option String)) (address : ClientAddress)
      (nobody : JsString.given user.join = none) :
      ComesFrom ⟨user, some address.text⟩ (.anonymous address.text)

/-- Two anonymous callers, the address of one being that of the other with a colon and more
after it. -/
def Nested : Caller → Caller → Prop
  | .anonymous first, .anonymous second =>
    first.toList ++ [':'] <+: second.toList ∨ second.toList ++ [':'] <+: first.toList
  | _, _ => False

/-- No two valid keys of the two requests meet unless they are the same key of the same caller. -/
def Isolated (first second : CallerRequest) (caller caller' : Caller) : Prop :=
  ∀ key key', isValidKey key = true → isValidKey key' = true →
    storeKey (callerScope first) key = storeKey (callerScope second) key' →
      caller = caller' ∧ key = key'

section Text

variable {c : Char}

def isAddressChar (c : Char) : Bool := "0123456789abcdef.:".toList.contains c

theorem digitChar_isAddressChar {digit : Nat} (small : digit < 16) :
    isAddressChar (Nat.digitChar digit) = true := by
  have all : ∀ digit : Fin 16, isAddressChar (Nat.digitChar digit) = true := by decide
  exact all ⟨digit, small⟩

theorem isPrintable_of_isAddressChar (address : isAddressChar c = true) :
    isPrintable c = true := by
  have all : "0123456789abcdef.:".toList.all isPrintable = true := by decide
  exact List.all_eq_true.mp all c (by simpa [isAddressChar] using address)

theorem numeral_chars {leading : List Nat} {last : Nat}
    (digits : ∀ digit ∈ last :: leading, digit < 16) :
    ∀ c ∈ numeral leading last, isAddressChar c = true := by
  intro c listed
  simp only [numeral, List.mem_map, List.mem_append, List.mem_singleton] at listed
  obtain ⟨digit, place, rfl⟩ := listed
  apply digitChar_isAddressChar
  apply digits
  rcases place with front | rfl
  · exact List.mem_cons_of_mem _ ((List.dropWhile_suffix _).subset front)
  · exact List.mem_cons_self

theorem numeral_length (leading : List Nat) (last : Nat) :
    (numeral leading last).length ≤ leading.length + 1 := by
  have shorter : (leading.dropWhile fun digit => decide (digit = 0)).length ≤ leading.length :=
    (List.dropWhile_suffix _).length_le
  simp only [numeral, List.length_map, List.length_append, List.length_singleton]
  omega

theorem decimalByte_chars (byte : UInt8) : ∀ c ∈ decimalByte byte, isAddressChar c = true := by
  have small : byte.toNat < 256 := byte.toNat_lt
  apply numeral_chars
  simp only [List.mem_cons, List.not_mem_nil, or_false]
  omega

theorem hexGroup_chars (bits : UInt16) : ∀ c ∈ hexGroup bits, isAddressChar c = true := by
  have small : bits.toNat < 65536 := bits.toNat_lt
  apply numeral_chars
  simp only [List.mem_cons, List.not_mem_nil, or_false]
  omega

theorem quad_chars (quad : Quad) : ∀ c ∈ quad.text, isAddressChar c = true := by
  have dot : isAddressChar '.' = true := by decide
  intro c listed
  simp only [Quad.text, List.mem_append, List.mem_cons] at listed
  rcases listed with ((first | rfl | second) | rfl | third) | rfl | fourth
  · exact decimalByte_chars _ c first
  · exact dot
  · exact decimalByte_chars _ c second
  · exact dot
  · exact decimalByte_chars _ c third
  · exact dot
  · exact decimalByte_chars _ c fourth

theorem quad_length (quad : Quad) : quad.text.length ≤ 15 := by
  have bytes : ∀ byte, (decimalByte byte).length ≤ 3 := fun byte => numeral_length _ _
  have first := bytes quad.first
  have second := bytes quad.second
  have third := bytes quad.third
  have fourth := bytes quad.fourth
  simp only [Quad.text, List.length_append, List.length_cons]
  omega

theorem piece_chars (piece : Piece) : ∀ c ∈ piece.text, isAddressChar c = true := by
  cases piece with
  | group bits => exact hexGroup_chars bits
  | dotted quad => exact quad_chars quad

theorem piece_length (piece : Piece) : piece.text.length ≤ 15 := by
  cases piece with
  | group bits =>
    have four : (hexGroup bits).length ≤ 4 := numeral_length _ _
    exact four.trans (by omega)
  | dotted quad => exact quad_length quad

theorem joined_chars (pieces : List Piece) : ∀ c ∈ joined pieces, isAddressChar c = true := by
  have colon : isAddressChar ':' = true := by decide
  fun_induction joined pieces with
  | case1 => exact fun c listed => nomatch listed
  | case2 piece => exact piece_chars piece
  | case3 piece rest _ ih =>
    intro c listed
    simp only [List.mem_append, List.mem_cons] at listed
    rcases listed with here | rfl | there
    · exact piece_chars piece c here
    · exact colon
    · exact ih c there

theorem joined_length (pieces : List Piece) :
    (joined pieces).length ≤ 16 * (pieces.map Piece.width).sum := by
  have wide : ∀ piece : Piece, 1 ≤ piece.width := by
    intro piece
    cases piece <;> simp [Piece.width]
  fun_induction joined pieces with
  | case1 => simp
  | case2 piece =>
    have short := piece_length piece
    have some := wide piece
    simp only [List.map_cons, List.map_nil, List.sum_cons, List.sum_nil]
    omega
  | case3 piece rest _ ih =>
    have short := piece_length piece
    have some := wide piece
    simp only [List.length_append, List.length_cons, List.map_cons, List.sum_cons]
    omega

theorem address_chars (address : ClientAddress) :
    ∀ c ∈ address.text.toList, isAddressChar c = true := by
  have colon : isAddressChar ':' = true := by decide
  cases address with
  | v4 quad => simpa [ClientAddress.text] using quad_chars quad
  | full pieces => simpa [ClientAddress.text] using joined_chars pieces
  | short left right =>
    intro c listed
    simp only [ClientAddress.text, String.toList_ofList, List.mem_append, List.mem_cons] at listed
    rcases listed with here | rfl | rfl | there
    · exact joined_chars left c here
    · exact colon
    · exact colon
    · exact joined_chars right c there

theorem address_length (address : ClientAddress) : address.text.toList.length ≤ 128 := by
  cases address with
  | v4 quad =>
    have short := quad_length quad
    simp only [ClientAddress.text, String.toList_ofList]
    omega
  | full pieces =>
    have short := joined_length pieces
    simp only [ClientAddress.text, String.toList_ofList]
    omega
  | short left right fewer =>
    have first := joined_length left
    have second := joined_length right
    simp only [List.map_append, List.sum_append] at fewer
    simp only [ClientAddress.text, String.toList_ofList, List.length_append, List.length_cons]
    omega

end Text

section Keys

theorem mem_trim {text : String} {c : Char} (listed : c ∈ text.toList)
    (shown : JsString.isSpace c = false) : c ∈ (JsString.trim text).toList := by
  have kept : ∀ chars : List Char, c ∈ chars → c ∈ chars.dropWhile JsString.isSpace := by
    intro chars member
    induction chars with
    | nil => exact member
    | cons d rest ih =>
      rw [List.dropWhile_cons]
      split
      · rename_i space
        rcases List.mem_cons.mp member with rfl | later
        · simp [shown] at space
        · exact ih later
      · exact member
  rw [JsString.trim, String.toList_ofList, List.mem_reverse]
  apply kept
  rw [List.mem_reverse]
  exact kept _ listed

theorem utf16_length_of_printable {text : String} (printable : text.toList.all isPrintable = true) :
    (Utf16.ofString text).length = text.toList.length := by
  unfold Utf16.ofString
  generalize text.toList = chars at printable
  induction chars with
  | nil => rfl
  | cons c rest ih =>
    simp only [List.all_cons, Bool.and_eq_true] at printable
    have basic : c.val < 0x10000 := by
      have bound := printable.1
      simp only [isPrintable, Bool.and_eq_true, decide_eq_true_eq] at bound
      have small : c.val.toNat ≤ 0x7e := bound.2
      rw [UInt32.lt_iff_toNat_lt]
      exact Nat.lt_of_le_of_lt small (by decide)
    simp [Utf16.ofChar, basic, ih printable.2]

/-- What follows a colon of an address, with a letter after it, is a key. -/
theorem isValidKey_of_address {rest : List Char}
    (chars : ∀ c ∈ rest, isAddressChar c = true) (short : rest.length ≤ 128) :
    isValidKey (String.ofList (rest ++ [':', 'k'])) = true := by
  have printable : (String.ofList (rest ++ [':', 'k'])).toList.all isPrintable = true := by
    rw [String.toList_ofList, List.all_append, Bool.and_eq_true]
    refine ⟨?_, by decide⟩
    exact List.all_eq_true.mpr fun c listed => isPrintable_of_isAddressChar (chars c listed)
  have shown : 'k' ∈ (JsString.trim (String.ofList (rest ++ [':', 'k']))).toList :=
    mem_trim (by simp) (by decide)
  have some : 0 < (Utf16.ofString (JsString.trim (String.ofList (rest ++ [':', 'k'])))).length := by
    apply List.length_pos_of_mem (a := 'k'.val.toUInt16)
    exact List.mem_flatMap.mpr ⟨'k', shown, by decide⟩
  simp only [isValidKey, Bool.and_eq_true, decide_eq_true_eq]
  refine ⟨⟨some, ?_⟩, ?_, printable⟩
  · rw [utf16_length_of_printable printable]
    simp only [String.toList_ofList, List.length_append, List.length_cons, List.length_nil,
      maxKeyLength]
    omega
  · simp

/-- Two texts with a colon after their first part agree in that part, or one part reaches past
the colon of the other. -/
theorem split_at_colon {first second key key' : List Char}
    (same : first ++ ':' :: key = second ++ ':' :: key') :
    first = second ∧ key = key' ∨ first ++ [':'] <+: second ∨ second ++ [':'] <+: first := by
  rcases List.append_eq_append_iff.mp same with ⟨more, rfl, rest⟩ | ⟨more, rfl, rest⟩
  · cases more with
    | nil => exact .inl ⟨(List.append_nil _).symm, (List.cons.inj rest).2⟩
    | cons c more =>
      obtain ⟨rfl, _⟩ := List.cons.inj rest
      exact .inr (.inl ⟨more, by simp⟩)
  · cases more with
    | nil => exact .inl ⟨List.append_nil _, (List.cons.inj rest).2.symm⟩
    | cons c more =>
      obtain ⟨rfl, _⟩ := List.cons.inj rest
      exact .inr (.inr ⟨more, by simp⟩)

end Keys

section Isolation

variable {first second : CallerRequest} {caller caller' : Caller}

def Caller.scope : Caller → List Char
  | .user id => "user:".toList ++ id.toList
  | .anonymous address => "ip:".toList ++ address.toList

theorem callerScope_of_comesFrom (comes : ComesFrom first caller) :
    (callerScope first).toList = caller.scope := by
  cases comes with
  | user id ip given =>
    have present : JsString.given (some id) = some id := by simp [JsString.given, given]
    simp [callerScope, present, Caller.scope]
  | anonymous user address nobody => simp [callerScope, nobody, Caller.scope]

theorem storeKey_of_comesFrom (comes : ComesFrom first caller) (key : String) :
    (storeKey (callerScope first) key).toList = caller.scope ++ ':' :: key.toList := by
  simp [storeKey, callerScope_of_comesFrom comes]

/-- A user's scope ends at the colon after it. -/
theorem not_prefix_of_user {id : String} {text : List Char} (plain : ':' ∉ id.toList) :
    ¬ text ++ [':'] <+: id.toList := by
  intro reaches
  exact plain (reaches.subset (by simp))

theorem isolated_of_not_nested (comes : ComesFrom first caller)
    (comes' : ComesFrom second caller') (apart : ¬ Nested caller caller') :
    Isolated first second caller caller' := by
  intro key key' _ _ same
  have texts := congrArg String.toList same
  rw [storeKey_of_comesFrom comes, storeKey_of_comesFrom comes'] at texts
  cases comes with
  | user id ip given plain =>
    cases comes' with
    | user id' ip' given' plain' =>
      simp only [Caller.scope, List.append_assoc, List.append_cancel_left_eq] at texts
      rcases split_at_colon texts with ⟨same, keys⟩ | reaches | reaches
      · exact ⟨congrArg Caller.user (String.toList_inj.mp same), String.toList_inj.mp keys⟩
      · exact absurd reaches (not_prefix_of_user plain')
      · exact absurd reaches (not_prefix_of_user plain)
    | anonymous => simp [Caller.scope] at texts
  | anonymous user =>
    cases comes' with
    | user => simp [Caller.scope] at texts
    | anonymous =>
      simp only [Caller.scope, List.append_assoc, List.append_cancel_left_eq] at texts
      rcases split_at_colon texts with ⟨same, keys⟩ | reaches
      · exact ⟨congrArg Caller.anonymous (String.toList_inj.mp same), String.toList_inj.mp keys⟩
      · exact absurd reaches apart

/-- An address that goes on after a colon where another one ends shares a key with it. -/
theorem collides_of_prefix {user user' : Option (Option String)} {address address' : ClientAddress}
    (nobody : JsString.given user.join = none) (nobody' : JsString.given user'.join = none)
    (reaches : address.text.toList ++ [':'] <+: address'.text.toList) :
    ∃ key key', isValidKey key = true ∧ isValidKey key' = true ∧
      storeKey (callerScope ⟨user, some address.text⟩) key =
        storeKey (callerScope ⟨user', some address'.text⟩) key' ∧ key ≠ key' := by
  obtain ⟨rest, reaches⟩ := reaches
  have chars : ∀ c ∈ rest, isAddressChar c = true := by
    intro c listed
    apply address_chars address' c
    rw [← reaches]
    exact List.mem_append_right _ listed
  have short : rest.length ≤ 128 := by
    have whole := address_length address'
    rw [← reaches, List.length_append] at whole
    omega
  refine ⟨_, "k", isValidKey_of_address chars short, by decide, ?_, ?_⟩
  · apply String.toList_inj.mp
    rw [storeKey_of_comesFrom (.anonymous user address nobody),
      storeKey_of_comesFrom (.anonymous user' address' nobody')]
    simp [Caller.scope, ← reaches]
  · intro same
    have lengths := congrArg (fun text => text.toList.length) same
    simp at lengths

/-- Keys of two callers are kept apart exactly when neither comes from an address that is the
other's with a colon and more after it. -/
theorem keys_isolated_iff (first second : CallerRequest) (caller caller' : Caller)
    (comes : ComesFrom first caller) (comes' : ComesFrom second caller') :
    Isolated first second caller caller' ↔ ¬ Nested caller caller' := by
  constructor
  · intro isolated nested
    cases comes with
    | user => exact nested
    | anonymous user address nobody =>
      cases comes' with
      | user => exact nested
      | anonymous user' address' nobody' =>
        rcases nested with reaches | reaches
        · obtain ⟨key, key', valid, valid', same, different⟩ :=
            collides_of_prefix nobody nobody' reaches
          exact different (isolated key key' valid valid' same).2
        · obtain ⟨key, key', valid, valid', same, different⟩ :=
            collides_of_prefix nobody' nobody reaches
          exact different (isolated key' key valid' valid same.symm).2.symm
  · exact isolated_of_not_nested comes comes'

def localhost : ClientAddress := .v4 ⟨127, 0, 0, 1⟩

def mappedLocalhost : ClientAddress :=
  .short [] [.group 0xffff, .dotted ⟨127, 0, 0, 1⟩] (by decide) (by decide)

theorem keys_isolated_of_mapped :
    mappedLocalhost.text = "::ffff:127.0.0.1" ∧
      Isolated ⟨none, some localhost.text⟩ ⟨none, some mappedLocalhost.text⟩
        (.anonymous localhost.text) (.anonymous mappedLocalhost.text) := by
  refine ⟨by decide, ?_⟩
  apply (keys_isolated_iff _ _ _ _ (.anonymous none localhost rfl)
    (.anonymous none mappedLocalhost rfl)).mpr
  unfold Nested
  decide

def loopback : ClientAddress := .short [] [.group 1] (by decide) (by decide)

def neighbour : ClientAddress := .short [] [.group 1, .group 2] (by decide) (by decide)

theorem keys_of_neighbours_meet :
    isValidKey "2:k" = true ∧ isValidKey "k" = true ∧ loopback.text ≠ neighbour.text ∧
      storeKey (callerScope ⟨none, some loopback.text⟩) "2:k" =
        storeKey (callerScope ⟨none, some neighbour.text⟩) "k" ∧
      ¬ Isolated ⟨none, some loopback.text⟩ ⟨none, some neighbour.text⟩
        (.anonymous loopback.text) (.anonymous neighbour.text) := by
  have valid : isValidKey "2:k" = true := by decide
  have valid' : isValidKey "k" = true := by decide
  have meet : storeKey (callerScope ⟨none, some loopback.text⟩) "2:k" =
      storeKey (callerScope ⟨none, some neighbour.text⟩) "k" := by decide
  refine ⟨valid, valid', by decide, meet, ?_⟩
  intro isolated
  exact absurd (isolated _ _ valid valid' meet).2 (by decide)

end Isolation

end NestApi.Idempotency
