import NestApi.DeadLetters
import NestApi.OutboxStore
import NestApi.SagaOrchestrator

namespace NestApi.Diagnostics

open Utf16 Saga Outbox Codec

structure Occasion (N : Type) where
  config : SagaConfig
  definition : SagaDefinition
  record : SagaInstanceRecord
  step : SagaStep
  unretryable : Bool
  relay : RelayConfig
  row : OutboxRow
  language : Codec.Language N
  topic : Utf16
  incoming : IncomingMessage
  context : DeadLetterContext
  now : Date
  random : ℚ

/-- What the saga's log and `lastError`, the outbox's `lastError` and the dead letter's error header
receive of an error's message. -/
def Occasion.texts {N : Type} (on : Occasion N) (message : Utf16) : List (Option Utf16) :=
  let failed := .error ⟨message, on.unretryable⟩
  let executed := executeStep on.config on.definition on.record on.step on.now on.random failed
  let compensated := compensateStep on.config on.record on.step on.now on.random failed
  let delivered := decideRow on.relay on.now on.random on.row (.refused message)
  let context := { on.context with error := .other true (ofString "Error") message }
  let letter := toDeadLetterMessage on.language on.topic on.incoming context
  [executed.entry.error, executed.lastError, compensated.entry.error,
    if compensated.status = .stuck then compensated.lastError else compensated.entry.error,
    (delivered.apply on.row).lastError, letter.headers.get DeadLetterHeader.error]

theorem ellipsis : ofString "…" = [0x2026] := by decide

theorem texts_eq {N : Type} (on : Occasion N) (message : Utf16) :
    on.texts message = List.replicate 6 (some (Saga.truncate message)) := by
  have outbox : Outbox.truncate message = Saga.truncate message := by
    rw [Outbox.truncate, Saga.truncate, ellipsis]
  have header := OrderedMap.get_setAll_of_mem (deadLetterHeaders_nodup on.language on.incoming
    { on.context with error := .other true (ofString "Error") message }) (.tail _ (.head _))
    on.incoming.headers
  have letter : Codec.truncate message = Saga.truncate message := by
    rw [Codec.truncate, Saga.truncate, ellipsis, errorLimit]
  rw [describeError, letter] at header
  cases retry : retryAt on.config on.now (on.record.attempts + 1) ⟨message, on.unretryable⟩
      on.random <;>
    cases next : Backoff.nextAttemptAt on.now (on.row.attempts + 1) on.relay.policy on.random <;>
    by_cases kind : on.step.kind = .retriable <;>
    simp [Occasion.texts, executeStep, compensateStep, decideRow, Delivery.error, OutboxWrite.apply,
      entry, retry, next, kind, outbox, toDeadLetterMessage, header,
      List.replicate]

/-- No surrogate is alone: a unit is a high one exactly if the next is a low one. -/
def Formed (text : Utf16) : Prop :=
  (0 :: (text ++ [0])).IsChain fun first second => isHigh first = isLow second

instance (text : Utf16) : Decidable (Formed text) := inferInstanceAs (Decidable (List.IsChain _ _))

/-- An error's message, any well-formed text. -/
structure Message where
  text : Utf16
  formed : Formed text

/-- What PostgreSQL takes as `text` and inside `jsonb`: Unicode without U+0000. -/
def Storable (text : Utf16) : Prop := Formed text ∧ 0 ∉ text

structure Diagnostic (message text : Utf16) : Prop where
  short : text.length ≤ 500
  storable : Storable text
  whole : message.length ≤ 500 → text = message
  cut : 500 < message.length → ∃ kept, kept <+: message ∧ text = kept ++ ofString "…"

/-- No U+0000 is kept, and the cut does not fall into a surrogate pair. -/
structure Cuttable (message : Utf16) : Prop where
  clean : 0 ∉ message.take (if message.length ≤ 500 then 500 else 499)
  between : 500 < message.length → ∀ unit ∈ message[498]?, isHigh unit = false

/-- A cut leaves a lone surrogate exactly if it follows a high one. -/
theorem formed_cut_iff {text : Utf16} (formed : Formed text) (n : Nat) :
    Formed (text.take n ++ ofString "…") ↔
      ∀ unit ∈ (text.take n).getLast?, isHigh unit = false := by
  have front : 0 :: text.take n <+: 0 :: (text ++ [0]) :=
    List.cons_prefix_cons.mpr ⟨rfl, (List.take_prefix n text).trans (List.prefix_append _ _)⟩
  have kept := formed.prefix front
  rw [Formed, ellipsis, List.append_assoc, ← List.cons_append, List.isChain_append,
    and_iff_right kept, and_iff_right (by decide), List.getLast?_cons]
  cases (text.take n).getLast? <;> simp [isLow, isHigh]

theorem storable_truncate_iff (message : Message) :
    Storable (Saga.truncate message.text) ↔ Cuttable message.text := by
  rw [Saga.truncate]
  split
  · rename_i fits
    have whole := List.take_of_length_le fits
    constructor
    · rintro ⟨_, clean⟩
      exact ⟨by rwa [if_pos fits, whole], fun long => by omega⟩
    · rintro ⟨clean, _⟩
      rw [if_pos fits, whole] at clean
      exact ⟨message.formed, clean⟩
  · rename_i long
    have cut : Formed (message.text.take 499 ++ ofString "…") ↔
        ∀ unit ∈ message.text[498]?, isHigh unit = false := by
      rw [formed_cut_iff message.formed, List.getLast?_take, List.getElem?_eq_getElem (by omega)]
      simp
    constructor
    · rintro ⟨formed, clean⟩
      refine ⟨?_, fun _ => cut.mp formed⟩
      rw [if_neg long]
      exact fun kept => clean (List.mem_append_left _ kept)
    · rintro ⟨clean, between⟩
      rw [if_neg long] at clean
      refine ⟨cut.mpr (between (by omega)), ?_⟩
      simpa using clean

/-- Every diagnostic of an error can be stored, with as much of its message as fits, exactly if none
of it is U+0000 and no surrogate pair stands across the cut. -/
theorem diagnostics_storable_iff {N : Type} (on : Occasion N) (message : Message) :
    (∀ text ∈ on.texts message.text, ∃ kept, text = some kept ∧ Diagnostic message.text kept) ↔
      Cuttable message.text := by
  rw [texts_eq, ← storable_truncate_iff]
  constructor
  · intro all
    obtain ⟨kept, same, diagnostic⟩ := all _ (.head _)
    cases same
    exact diagnostic.storable
  · intro storable text listed
    refine ⟨_, List.eq_of_mem_replicate listed, ?_, storable, ?_, ?_⟩
    · rw [Saga.truncate]
      split
      · assumption
      · simp
    · intro fits
      rw [Saga.truncate, if_pos fits]
    · intro long
      refine ⟨_, List.take_prefix 499 _, ?_⟩
      rw [Saga.truncate, if_neg (by omega)]
      rfl

/-- A character outside the basic plane at the cut leaves half of it in every text. -/
theorem diagnostics_split_pair : ∃ message : Message, ∀ (N : Type) (on : Occasion N),
    ∀ text ∈ on.texts message.text, ∀ kept ∈ text, ¬ Formed kept := by
  have lone : ¬ Formed (Saga.truncate (List.replicate 498 97 ++ ofString "😀aa")) := by
    decide +kernel
  refine ⟨⟨List.replicate 498 97 ++ ofString "😀aa", by decide +kernel⟩, ?_⟩
  intro N on text listed kept held
  rw [texts_eq] at listed
  rw [List.eq_of_mem_replicate listed, Option.mem_some] at held
  rwa [← held]

end NestApi.Diagnostics
