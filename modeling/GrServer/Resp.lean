import Mathlib

/-!
# The REdis Serialization Protocol

A command is an array of bulk strings, which are announced by their length in
bytes and may hold any bytes.  A reply is a status line, an error line, a bulk
string or nil.  Reading a command gives back its arguments; a stream of replies
that is cut anywhere goes on with the end of a line.
-/

namespace GrServer

namespace Resp

def crlf : List UInt8 := [13, 10]

def decimal (n : ℕ) : List UInt8 := (Nat.toDigits 10 n).map fun c => UInt8.ofNat c.toNat

def bulk (b : List UInt8) : List UInt8 := 36 :: (decimal b.length ++ crlf) ++ (b ++ crlf)

def command (args : List (List UInt8)) : List UInt8 :=
  42 :: (decimal args.length ++ crlf) ++ args.flatMap bulk

inductive Reply where
  | status (line : List UInt8)
  | error (line : List UInt8)
  | nil
  | bulk (value : List UInt8)
  deriving DecidableEq

def Reply.encode : Reply → List UInt8
  | .status line => 43 :: line ++ crlf
  | .error line => 45 :: line ++ crlf
  | .nil => 36 :: [45, 49] ++ crlf
  | .bulk value => Resp.bulk value

/-! ## Reading a command -/

def readLine : List UInt8 → Option (List UInt8 × List UInt8)
  | [] => none
  | b :: rest =>
      if b = 13 ∧ rest.head? = some 10 then some ([], rest.tail)
      else (readLine rest).map fun p => (b :: p.1, p.2)

def readDecimal (line : List UInt8) : Option ℕ :=
  let digits := line.map fun b => Char.ofNat b.toNat
  if digits ≠ [] ∧ digits.all Char.isDigit = true then some (Nat.ofDigitChars 10 digits 0) else none

def readCount (mark : UInt8) : List UInt8 → Option (ℕ × List UInt8)
  | [] => none
  | b :: rest =>
      if b = mark then
        (readLine rest).bind fun p => (readDecimal p.1).map fun n => (n, p.2)
      else none

def readBulk (bytes : List UInt8) : Option (List UInt8 × List UInt8) :=
  (readCount 36 bytes).bind fun p =>
    if crlf <+: p.2.drop p.1 then some (p.2.take p.1, p.2.drop (p.1 + 2)) else none

def readArgs : ℕ → List UInt8 → Option (List (List UInt8) × List UInt8)
  | 0, bytes => some ([], bytes)
  | n + 1, bytes =>
      (readBulk bytes).bind fun p => (readArgs n p.2).map fun q => (p.1 :: q.1, q.2)

def readCommand (bytes : List UInt8) : Option (List (List UInt8) × List UInt8) :=
  (readCount 42 bytes).bind fun p => readArgs p.1 p.2

section Reading

variable {l r : List UInt8}

theorem readLine_append (h : 13 ∉ l) (r : List UInt8) : readLine (l ++ crlf ++ r) = some (l, r) := by
  induction l with
  | nil => rfl
  | cons b l ih =>
      rw [List.mem_cons, not_or] at h
      rw [List.cons_append, List.cons_append, readLine, if_neg (fun hb => h.1 hb.1.symm), ih h.2]
      rfl

theorem digit_lt {c : Char} (h : c.isDigit = true) : 48 ≤ c.toNat ∧ c.toNat ≤ 57 := by
  unfold Char.isDigit at h
  simp only [Bool.and_eq_true, decide_eq_true_eq] at h
  exact ⟨h.1, h.2⟩

theorem isDigit_of_mem_toDigits {n : ℕ} {c : Char} (h : c ∈ Nat.toDigits 10 n) :
    c.isDigit = true :=
  Nat.isDigit_of_mem_toDigits (by omega) (by omega) h

theorem mem_decimal {n : ℕ} {b : UInt8} (h : b ∈ decimal n) : 48 ≤ b.toNat ∧ b.toNat ≤ 57 := by
  rcases List.mem_map.mp h with ⟨c, hc, rfl⟩
  have hdigit := digit_lt (isDigit_of_mem_toDigits hc)
  rw [UInt8.toNat_ofNat']
  omega

theorem not_mem_decimal {n : ℕ} {b : UInt8} (hb : b.toNat < 48) : b ∉ decimal n := by
  intro h
  have hdigit := mem_decimal h
  omega

theorem decimal_digits (n : ℕ) :
    ((decimal n).map fun b => Char.ofNat b.toNat) = Nat.toDigits 10 n := by
  have hback : ∀ c ∈ Nat.toDigits 10 n, Char.ofNat (UInt8.ofNat c.toNat).toNat = id c := by
    intro c hc
    have hdigit := digit_lt (isDigit_of_mem_toDigits hc)
    rw [UInt8.toNat_ofNat', Nat.mod_eq_of_lt (by omega), Char.ofNat_toNat]
    rfl
  unfold decimal
  rw [List.map_map]
  exact (List.map_congr_left hback).trans (List.map_id _)

theorem readDecimal_decimal (n : ℕ) : readDecimal (decimal n) = some n := by
  unfold readDecimal
  rw [decimal_digits]
  have hall : (Nat.toDigits 10 n).all Char.isDigit = true := by
    rw [List.all_eq_true]
    exact fun c hc => isDigit_of_mem_toDigits hc
  rw [if_pos ⟨Nat.toDigits_ne_nil, hall⟩, Nat.ofDigitChars_ten_toDigits]

theorem readCount_decimal (mark : UInt8) (n : ℕ) (r : List UInt8) :
    readCount mark (mark :: (decimal n ++ crlf) ++ r) = some (n, r) := by
  rw [List.cons_append, readCount, if_pos rfl, readLine_append (not_mem_decimal (by decide)),
    Option.bind_some, readDecimal_decimal]
  rfl

theorem readBulk_bulk (b r : List UInt8) : readBulk (bulk b ++ r) = some (b, r) := by
  unfold readBulk bulk
  rw [List.append_assoc, readCount_decimal, Option.bind_some]
  dsimp only
  rw [List.append_assoc, List.drop_left, if_pos (List.prefix_append _ _), List.take_left]
  have hlength : b.length + 2 = (b ++ crlf).length := by
    rw [List.length_append]
    rfl
  rw [hlength, ← List.append_assoc, List.drop_left]

theorem readArgs_bulk (args : List (List UInt8)) (r : List UInt8) :
    readArgs args.length (args.flatMap bulk ++ r) = some (args, r) := by
  induction args with
  | nil => rfl
  | cons b args ih =>
      rw [List.length_cons, readArgs, List.flatMap_cons, List.append_assoc, readBulk_bulk,
        Option.bind_some, ih]
      rfl

theorem readCommand_command (args : List (List UInt8)) (r : List UInt8) :
    readCommand (command args ++ r) = some (args, r) := by
  unfold readCommand command
  rw [List.append_assoc, readCount_decimal, Option.bind_some]
  exact readArgs_bulk args r

end Reading

section Streams

def Tail (l : List UInt8) : Prop := l = [] ∨ l = [10] ∨ ∃ m, l = m ++ crlf

theorem Reply.encode_ends (r : Reply) : ∃ m, r.encode = m ++ crlf := by
  cases r with
  | status line => exact ⟨43 :: line, rfl⟩
  | error line => exact ⟨45 :: line, rfl⟩
  | nil => exact ⟨[36, 45, 49], rfl⟩
  | bulk value =>
      refine ⟨36 :: (decimal value.length ++ crlf) ++ value, ?_⟩
      rw [List.append_assoc]
      rfl

theorem tail_append_encode (l : List UInt8) (r : Reply) : Tail (l ++ r.encode) := by
  rcases r.encode_ends with ⟨m, hm⟩
  refine .inr (.inr ⟨l ++ m, ?_⟩)
  rw [hm, List.append_assoc]

theorem Tail.drop {l : List UInt8} (h : Tail l) (k : ℕ) : Tail (l.drop k) := by
  rcases h with rfl | rfl | ⟨m, rfl⟩
  · exact .inl List.drop_nil
  · cases k with
    | zero => exact .inr (.inl rfl)
    | succ k => exact .inl List.drop_nil
  · rw [List.drop_append]
    rcases Nat.lt_trichotomy k (m.length + 1) with hlt | heq | hgt
    · have hnone : k - m.length = 0 := by omega
      rw [hnone]
      exact .inr (.inr ⟨_, rfl⟩)
    · have hone : k - m.length = 1 := by omega
      rw [hone, List.drop_eq_nil_of_le (by omega)]
      exact .inr (.inl rfl)
    · have htwo : k - m.length = k - m.length - 2 + 2 := by omega
      rw [htwo, List.drop_eq_nil_of_le (by omega)]
      exact .inl List.drop_nil

end Streams

end Resp

end GrServer
