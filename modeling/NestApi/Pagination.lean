import NestApi.Base64
import NestApi.Common
import NestApi.JsString

namespace NestApi

def base64urlAlphabet : List Char :=
  "ABCDEFGHIJKLMNOPQRSTUVWXYZabcdefghijklmnopqrstuvwxyz0123456789-_".toList

def base64urlDigit (bits : Nat) : Char := base64urlAlphabet.getD bits 'A'

/-- Not padded. -/
def base64url (bytes : List UInt8) : List Char := (Base64.digits bytes).map base64urlDigit

def encodeCursor (id : String) : String := String.ofList (base64url id.toUTF8.toList)

/-- The six bits of a letter in either alphabet. -/
def base64urlValue (c : Char) : Option Nat :=
  (base64urlAlphabet.idxOf? c).or (Base64.letters.idxOf? c)

/-- Any other character is passed over. What stands for bytes that are not UTF-8 is given. -/
def decodeCursor (replaced : List UInt8 → String) (cursor : String) : String :=
  let bytes := Base64.ofDigits (cursor.toList.filterMap base64urlValue)
  (String.fromUTF8? (ByteArray.mk bytes.toArray)).getD (replaced bytes)

theorem base64urlValue_digit :
    ∀ digit < 64, base64urlValue (base64urlDigit digit) = some digit := by
  decide

theorem ofDigits_base64url (bytes : List UInt8) :
    Base64.ofDigits ((base64url bytes).filterMap base64urlValue) = bytes := by
  rw [base64url, Base64.filterMap_letters base64urlValue_digit, Base64.ofDigits_digits]

theorem decodeCursor_encodeCursor (replaced : List UInt8 → String) (id : String) :
    decodeCursor replaced (encodeCursor id) = id := by
  rw [decodeCursor, encodeCursor, String.toList_ofList, ofDigits_base64url, Base64.mk_toList,
    JsString.fromUTF8?_toUTF8, Option.getD_some]

theorem encodeCursor_ne_empty {id : String} (named : id ≠ "") : encodeCursor id ≠ "" := by
  intro empty
  apply named
  have read := decodeCursor_encodeCursor (fun _ => "") id
  rw [empty] at read
  rw [← read]
  decide

structure CursorPage (α : Type) where
  items : List α
  nextCursor : Option String
  hasNextPage : Bool
  deriving DecidableEq

variable {α β : Type} {getId : α → String} {rows : List α} {limit : Nat}

/-- A page of the rows of a query for one row more than the page holds. -/
def buildCursorPage (getId : α → String) (rows : List α) (limit : Nat) : CursorPage α :=
  let hasNextPage := decide (rows.length > limit)
  let items := if hasNextPage then rows.take limit else rows
  { items
    nextCursor := if hasNextPage then items.getLast?.map fun last => encodeCursor (getId last)
      else none
    hasNextPage }

def rowsAfter (getId : α → String) (cursor : Option String) (rows : List α) : List α :=
  match JsString.given cursor with
  | none => rows
  | some id => (rows.dropWhile fun row => getId row ≠ id).drop 1

theorem rowsAfter_subset (getId : α → String) (cursor : Option String) (rows : List α) :
    rowsAfter getId cursor rows ⊆ rows := by
  unfold rowsAfter
  split
  · exact List.Subset.refl _
  · exact ((List.drop_sublist _ _).trans (List.dropWhile_sublist _)).subset

def CursorPage.map (f : α → β) (page : CursorPage α) : CursorPage β :=
  { items := page.items.map f, nextCursor := page.nextCursor, hasNextPage := page.hasNextPage }

theorem buildCursorPage_of_le
    (last : rows.length ≤ limit) : buildCursorPage getId rows limit = ⟨rows, none, false⟩ := by
  simp [buildCursorPage, Nat.not_lt.mpr last]

theorem buildCursorPage_of_lt (more : limit < rows.length) :
    buildCursorPage getId rows limit = ⟨rows.take limit,
      (rows.take limit).getLast?.map fun last => encodeCursor (getId last), true⟩ := by
  simp [buildCursorPage, more]

theorem buildCursorPage_subset (getId : α → String) (rows : List α) (limit : Nat) :
    (buildCursorPage getId rows limit).items ⊆ rows := by
  simp only [buildCursorPage]
  split
  · exact (List.take_sublist _ _).subset
  · exact List.Subset.refl _

end NestApi
