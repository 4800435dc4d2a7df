import Iceflow.Platform
import Mathlib.Tactic.Ring

/-! A platform with generic name components: URIs are split at slashes and
percent-decoded, numbers take 1, 2, 4 or 8 bytes, handles count up, and the only
JSON texts are those of unsigned numbers. Concrete runs are evaluated on it. -/
namespace Iceflow.Reference
open Registration

def hexDigit (c : Char) : Option Nat :=
  if '0' ≤ c ∧ c ≤ '9' then some (c.toNat - 48)
  else if 'A' ≤ c ∧ c ≤ 'F' then some (c.toNat - 55)
  else if 'a' ≤ c ∧ c ≤ 'f' then some (c.toNat - 87)
  else none

/-- A percent sign without two hexadecimal digits stands for itself. -/
def percentDecode : List Char → Bytes
  | [] => []
  | '%' :: a :: b :: rest =>
    match hexDigit a, hexDigit b with
    | some high, some low => UInt8.ofNat (16 * high + low) :: percentDecode rest
    | _, _ => 37 :: percentDecode (a :: b :: rest)
  | c :: rest => String.utf8EncodeChar c ++ percentDecode rest

/-- A component of periods only loses three of them and may not have fewer. -/
def decodeComponent (text : List Char) : Option Bytes :=
  let value := percentDecode text
  if value.all (· = 46) then
    if value.length < 3 then none else some (value.drop 3)
  else some value

def nameOfUri (uri : String) : Option (List Bytes) :=
  let path := match uri.toList with
    | '/' :: rest => rest
    | path => path
  let parts := path.splitOn '/'
  (if parts.getLast? = some [] then parts.dropLast else parts).mapM decodeComponent

def bigEndian : Nat → Nat → Bytes
  | 0, _ => []
  | k + 1, n => UInt8.ofNat (n / 256 ^ k) :: bigEndian k n

def nonNegativeInteger (n : Nat) : Bytes :=
  if n < 2 ^ 8 then bigEndian 1 n
  else if n < 2 ^ 16 then bigEndian 2 n
  else if n < 2 ^ 32 then bigEndian 4 n
  else bigEndian 8 n

def ofBigEndian (bytes : Bytes) : Nat := bytes.foldl (fun n byte => 256 * n + byte.toNat) 0

theorem foldl_bigEndian (k n start : Nat) :
    (bigEndian k n).foldl (fun n byte => 256 * n + byte.toNat) start =
      256 ^ k * start + n % 256 ^ k := by
  induction k generalizing start with
  | zero => simp [bigEndian, Nat.mod_one]
  | succ k ih =>
    have split : n % 256 ^ (k + 1) = n % 256 ^ k + 256 ^ k * (n / 256 ^ k % 256) := by
      rw [Nat.pow_succ, Nat.mod_mul]
    rw [bigEndian, List.foldl_cons, ih, UInt8.toNat_ofNat', split]
    ring

theorem length_bigEndian (k n : Nat) : (bigEndian k n).length = k := by
  induction k with
  | zero => rfl
  | succ k ih => rw [bigEndian, List.length_cons, ih]

theorem ofBigEndian_nonNegativeInteger {n : Nat} (bound : n < 2 ^ 64) :
    ofBigEndian (nonNegativeInteger n) = n := by
  unfold ofBigEndian nonNegativeInteger
  split_ifs <;> rw [foldl_bigEndian] <;> omega

def dumpUnsigned (n : UInt64) : Bytes :=
  (Nat.toDigits 10 n.toNat).map (fun c => UInt8.ofNat c.toNat)

def parseJson (text : Bytes) : Option Json :=
  let n := UInt64.ofNat (Nat.ofDigitChars 10 (text.map (fun byte => Char.ofNat byte.toNat)) 0)
  if dumpUnsigned n = text then some (.unsigned n) else none

theorem digit_byte {c : Char} (digit : c.isDigit = true) :
    Char.ofNat (UInt8.ofNat c.toNat).toNat = c := by
  simp only [Char.isDigit, Bool.and_eq_true, decide_eq_true_eq, ge_iff_le] at digit
  have high : c.toNat ≤ 57 := digit.2
  rw [UInt8.toNat_ofNat', Nat.mod_eq_of_lt (by omega), Char.ofNat_toNat]

theorem parseJson_dumpUnsigned (n : UInt64) :
    parseJson (dumpUnsigned n) = some (.unsigned n) := by
  have digits : (dumpUnsigned n).map (fun byte => Char.ofNat byte.toNat) =
      Nat.toDigits 10 n.toNat := by
    rw [dumpUnsigned, List.map_map]
    conv_rhs => rw [← List.map_id (Nat.toDigits 10 n.toNat)]
    apply List.map_congr_left
    intro c member
    exact digit_byte (Nat.isDigit_of_mem_toDigits (by decide) (by decide) member)
  simp [parseJson, digits, Nat.ofDigitChars_ten_toDigits]

theorem le_foldr_max {issued : List Nat} {h : Nat} (member : h ∈ issued) :
    h ≤ issued.foldr max 0 := by
  induction issued with
  | nil => contradiction
  | cons head tail ih =>
    rcases List.mem_cons.mp member with rfl | rest
    · exact le_max_left _ _
    · exact (ih rest).trans (le_max_right _ _)

/-- The successor of the largest handle given out. -/
def allocator : Allocator Nat where
  next issued := issued.foldr max 0 + 1
  next_not_mem issued member := by
    have bound := le_foldr_max member
    omega

def backchannel : Bytes := percentDecode "backchannel".toList

scoped instance platform : Platform where
  Component := Bytes
  componentDecidableEq := inferInstance
  size := List.length
  nameOfUri := nameOfUri
  fromNumber n := nonNegativeInteger n.toNat
  fromNumber_injective m n same := by
    have values := congrArg ofBigEndian same
    simp only [ofBigEndian_nonNegativeInteger m.toNat_lt,
      ofBigEndian_nonNegativeInteger n.toNat_lt] at values
    exact UInt64.toNat_inj.mp values
  size_fromNumber n := by
    unfold nonNegativeInteger
    split_ifs <;> simp [length_bigEndian]
  backchannel := backchannel
  size_backchannel := by decide
  Handle := Nat
  handleDecidableEq := inferInstance
  allocator := allocator
  parseJson := parseJson
  dumpUnsigned := dumpUnsigned
  parseJson_dumpUnsigned := parseJson_dumpUnsigned

def components (texts : List String) : Name := texts.map (fun text => percentDecode text.toList)

/-- Handles in the order in which they are given out, from 1. -/
def handle (n : Nat) : Handle := n

end Iceflow.Reference
