import Mathlib.Algebra.BigOperators.Group.List.Basic
import Mathlib.Algebra.Ring.Int.Defs
import Pika.Foundation.Resp

/-!
# Values of the reply format

A value of the Redis protocol is a line, an integer, a bulk string or an array
of values.  It is written as a sequence of tokens, where the token of an array
announces how many values follow.  The bytes of a sequence of tokens determine
the tokens, so bytes are a value only if their tokens are; and the numbers
announced by the tokens of a value are those of the values that follow.
-/

namespace Pika.Foundation

open List

/-- A text without line breaks. -/
structure TextLine where
  text : List UInt8
  noReturn : carriageReturn ∉ text
  noFeed : (10 : UInt8) ∉ text

/-- What the bytes of a reply are made of. -/
inductive RespToken where
  | error (line : TextLine)
  | status (line : TextLine)
  | integer (number : Int)
  | bulk (text : List UInt8)
  /-- The beginning of an array that announces a number of values. -/
  | header (count : Int)

namespace RespToken

/-- The first byte of a token. -/
def marker : RespToken → UInt8
  | error _ => 45
  | status _ => 43
  | integer _ => 58
  | bulk _ => bulkMarker
  | header _ => arrayMarker

/-- The first line of a token, behind its marker. -/
def firstLine : RespToken → List UInt8
  | error line => line.text
  | status line => line.text
  | integer number => decimalInt number
  | bulk text => decimal text.length
  | header count => decimalInt count

/-- What stands behind the first line of a token. -/
def body : RespToken → List UInt8
  | bulk text => text ++ newLine
  | error _ | status _ | integer _ | header _ => []

/-- A token as it is sent. -/
def bytes (token : RespToken) : List UInt8 :=
  lengthLine token.marker token.firstLine ++ token.body

/-- How many values are complete with a token, less those it announces. -/
def weight : RespToken → Int
  | header count => 1 - count
  | error _ | status _ | integer _ | bulk _ => 1

end RespToken

/-- A value of the protocol. -/
inductive RespValue where
  | error (line : TextLine)
  | status (line : TextLine)
  | integer (number : Int)
  | bulk (text : List UInt8)
  | array (elements : List RespValue)

mutual

/-- The tokens of a value. -/
def RespValue.tokens : RespValue → List RespToken
  | .error line => [.error line]
  | .status line => [.status line]
  | .integer number => [.integer number]
  | .bulk text => [.bulk text]
  | .array elements => .header elements.length :: respTokens elements

/-- The tokens of values. -/
def respTokens : List RespValue → List RespToken
  | [] => []
  | value :: values => value.tokens ++ respTokens values

end

/-- Tokens as they are sent. -/
def respBytes (tokens : List RespToken) : List UInt8 := tokens.flatMap RespToken.bytes

/-- Bytes are exactly one value. -/
def IsRespValue (bytes : List UInt8) : Prop := ∃ value : RespValue, respBytes value.tokens = bytes

/-! ## Bytes determine tokens -/

theorem RespToken.not_mem_firstLine (token : RespToken) : carriageReturn ∉ token.firstLine := by
  have numeral : ∀ number, carriageReturn ∉ decimalInt number := by
    intro number
    exact not_mem_decimalInt (by decide) (by decide) number
  cases token with
  | error line => exact line.noReturn
  | status line => exact line.noReturn
  | integer number => exact numeral number
  | bulk text => exact numeral text.length
  | header count => exact numeral count

/-- A line without carriage returns ends at its separator. -/
theorem lengthLine_append_inj (noReturn : carriageReturn ∉ line)
    (noReturnToo : carriageReturn ∉ text)
    (same : lengthLine marker line ++ rest = lengthLine other text ++ later) :
    marker = other ∧ line = text ∧ rest = later := by
  have stops : ∀ {line rest : List UInt8}, carriageReturn ∉ line →
      (line ++ (newLine ++ rest)).takeWhile (· != carriageReturn) = line := by
    intro line rest absent
    rw [takeWhile_append_of_pos]
    · simp [newLine]
    · intro byte member
      rw [bne_iff_ne]
      rintro rfl
      exact absent member
  simp only [lengthLine, cons_append, append_assoc, List.cons.injEq] at same
  obtain ⟨sameMarker, sameLines⟩ := same
  have lines := congrArg (List.takeWhile (· != carriageReturn)) sameLines
  rw [stops noReturn, stops noReturnToo] at lines
  subst lines
  exact ⟨sameMarker, rfl, append_cancel_left (append_cancel_left sameLines)⟩

/-- The bytes of a token end where it does. -/
theorem RespToken.bytes_append_inj {first second : RespToken}
    (same : first.bytes ++ rest = second.bytes ++ later) :
    first = second ∧ rest = later := by
  rw [bytes, bytes, append_assoc, append_assoc] at same
  obtain ⟨markers, lines, behind⟩ := lengthLine_append_inj
    first.not_mem_firstLine second.not_mem_firstLine same
  cases first with
  | error line =>
    cases second with
    | error other =>
      obtain ⟨text, _, _⟩ := line
      cases lines
      exact ⟨rfl, behind⟩
    | _ => exact absurd markers (by simp [marker, bulkMarker, arrayMarker])
  | status line =>
    cases second with
    | status other =>
      obtain ⟨text, _, _⟩ := line
      cases lines
      exact ⟨rfl, behind⟩
    | _ => exact absurd markers (by simp [marker, bulkMarker, arrayMarker])
  | integer number =>
    cases second with
    | integer other =>
      cases decimalInt_injective lines
      exact ⟨rfl, behind⟩
    | _ => exact absurd markers (by simp [marker, bulkMarker, arrayMarker])
  | bulk text =>
    cases second with
    | bulk other =>
      have lengths : text.length = other.length := Int.ofNat.inj (decimalInt_injective lines)
      simp only [body, append_assoc] at behind
      obtain ⟨texts, ends⟩ := append_inj behind lengths
      cases texts
      exact ⟨rfl, append_cancel_left ends⟩
    | _ => exact absurd markers (by simp [marker, bulkMarker, arrayMarker])
  | header count =>
    cases second with
    | header other =>
      cases decimalInt_injective lines
      exact ⟨rfl, behind⟩
    | _ => exact absurd markers (by simp [marker, bulkMarker, arrayMarker])

theorem RespToken.bytes_ne_nil (token : RespToken) : token.bytes ≠ [] := by
  simp [bytes, lengthLine]

/-- Bytes belong to one list of tokens. -/
theorem respBytes_injective : Function.Injective respBytes := by
  intro tokens
  induction tokens with
  | nil =>
    intro others same
    cases others with
    | nil => rfl
    | cons token others =>
      have empty := append_eq_nil_iff.mp same.symm
      exact absurd empty.1 token.bytes_ne_nil
  | cons token tokens ih =>
    intro others same
    cases others with
    | nil =>
      have empty := append_eq_nil_iff.mp same
      exact absurd empty.1 token.bytes_ne_nil
    | cons other others =>
      obtain ⟨rfl, later⟩ := RespToken.bytes_append_inj same
      rw [ih later]

/-! ## Weights -/

/-- The values complete with tokens, less those announced. -/
def respWeight (tokens : List RespToken) : Int := (tokens.map RespToken.weight).sum

@[simp] theorem respWeight_nil : respWeight [] = 0 := rfl

@[simp] theorem respWeight_cons (token : RespToken) (tokens : List RespToken) :
    respWeight (token :: tokens) = token.weight + respWeight tokens := by
  simp [respWeight]

@[simp] theorem respWeight_append (first second : List RespToken) :
    respWeight (first ++ second) = respWeight first + respWeight second := by
  simp [respWeight]

mutual

/-- The tokens of a value complete one value. -/
theorem respWeight_tokens (value : RespValue) : respWeight value.tokens = 1 := by
  cases value with
  | error line => rfl
  | status line => rfl
  | integer number => rfl
  | bulk text => rfl
  | array elements =>
    rw [RespValue.tokens, respWeight_cons, respWeight_respTokens elements, RespToken.weight]
    omega

theorem respWeight_respTokens (values : List RespValue) :
    respWeight (respTokens values) = values.length := by
  cases values with
  | nil => rfl
  | cons value values =>
    rw [respTokens, respWeight_append, respWeight_tokens value,
      respWeight_respTokens values, length_cons]
    omega

end

/-- Tokens whose bytes are a value have the weight of a value. -/
theorem respWeight_of_isRespValue (one : IsRespValue (respBytes tokens)) :
    respWeight tokens = 1 := by
  obtain ⟨value, same⟩ := one
  rw [← respBytes_injective same]
  exact respWeight_tokens value

@[simp] theorem respBytes_nil : respBytes [] = [] := rfl

@[simp] theorem respBytes_cons (token : RespToken) (tokens : List RespToken) :
    respBytes (token :: tokens) = token.bytes ++ respBytes tokens := by
  simp [respBytes]

@[simp] theorem respBytes_append (first second : List RespToken) :
    respBytes (first ++ second) = respBytes first ++ respBytes second := by
  simp [respBytes]

theorem respTokens_eq_flatMap (values : List RespValue) :
    respTokens values = values.flatMap RespValue.tokens := by
  induction values with
  | nil => rfl
  | cons value values ih => rw [respTokens, ih, flatMap_cons]

end Pika.Foundation
