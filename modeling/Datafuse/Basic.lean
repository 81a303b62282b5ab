import Mathlib.Data.List.Basic
import Mathlib.Algebra.Group.Nat.Basic

set_option autoImplicit false

/-! # Errors and maps shared by the crates

`common_exception::ErrorCode` as far as the modelled functions raise it, the `Result` alias
they return, `std::collections::HashMap` as the lookups it answers, and the little-endian
byte order of `to_le_bytes`.

A Rust panic (an `unwrap` on `None`, an index out of bounds, `unreachable!`) aborts the call;
the model returns it as the error `ErrorCode.panic`, so that every statement of the form
"if the call returns `Ok`" also covers the panicking paths.
-/

namespace Datafuse

/-- The error codes the modelled functions return, with their messages. -/
inductive ErrorCode where
  | badArguments (msg : String)
  | internal (msg : String)
  | panic (msg : String)
  deriving DecidableEq, Repr

/-- `common_exception::Result`. -/
abbrev Result (α : Type) := Except ErrorCode α

/-- What a successful `?` step says: the first computation succeeded, and so did the rest. -/
theorem bind_eq_ok {ε α β : Type} {x : Except ε α} {g : α → Except ε β} {b : β}
    (h : x >>= g = .ok b) : ∃ a, x = .ok a ∧ g a = .ok b := by
  cases x with
  | error => cases h
  | ok a => exact ⟨a, rfl, h⟩

theorem ok_bind {ε α β : Type} (a : α) (g : α → Except ε β) :
    (Except.ok a : Except ε α) >>= g = g a := rfl

theorem map_eq_ok {ε α β : Type} {g : α → β} {r : Except ε α} {b : β} (h : r.map g = .ok b) :
    ∃ a, r = .ok a ∧ g a = b := by
  cases r with
  | error => cases h
  | ok a => exact ⟨a, rfl, by cases h; rfl⟩

theorem map_eq_error_iff {ε α β : Type} {g : α → β} {r : Except ε α} {e : ε} :
    r.map g = .error e ↔ r = .error e := by
  cases r <;> simp [Except.map]

theorem exists_map_eq_ok_iff {ε α β : Type} {g : α → β} {r : Except ε α} :
    (∃ b, r.map g = .ok b) ↔ ∃ a, r = .ok a := by
  cases r <;> simp [Except.map]

/-- A `HashMap<K, V>`, as the value it holds for every key. -/
def HashMap (K V : Type) : Type := K → Option V

namespace HashMap

variable {K V : Type}

/-- `HashMap::new()`. -/
def empty : HashMap K V := fun _ => none

/-- `HashMap::get`. -/
def get (m : HashMap K V) (k : K) : Option V := m k

/-- `HashMap::insert`: the new value replaces the old one. -/
def insert [DecidableEq K] (m : HashMap K V) (k : K) (v : V) : HashMap K V :=
  fun k' => if k' = k then some v else m k'

@[simp] theorem get_empty (k : K) : (empty : HashMap K V).get k = none := rfl

@[simp] theorem get_insert_self [DecidableEq K] (m : HashMap K V) (k : K) (v : V) :
    (m.insert k v).get k = some v := by
  simp [insert, get]

theorem get_insert [DecidableEq K] (m : HashMap K V) (k k' : K) (v : V) :
    (m.insert k v).get k' = if k' = k then some v else m.get k' := rfl

@[simp] theorem get_insert_ne [DecidableEq K] (m : HashMap K V) {k k' : K} (v : V)
    (h : k' ≠ k) : (m.insert k v).get k' = m.get k' := by
  simp [get_insert, h]

/-- Inserting a list of entries leaves every key that none of them has as it was. -/
theorem get_foldl_insert_of_not_mem [DecidableEq K] (entries : List (K × V)) (m : HashMap K V)
    {k : K} (hk : k ∉ entries.map (·.1)) :
    (entries.foldl (fun m e => m.insert e.1 e.2) m).get k = m.get k := by
  induction entries generalizing m with
  | nil => rfl
  | cons e es ih =>
      simp only [List.map_cons, List.mem_cons, not_or] at hk
      rw [List.foldl_cons, ih _ hk.2, get_insert_ne _ _ hk.1]

/-- Inserting a list of entries with distinct keys gives every key the value of its entry. -/
theorem get_foldl_insert_of_mem [DecidableEq K] (entries : List (K × V)) (m : HashMap K V)
    (hnd : (entries.map (·.1)).Nodup) {k : K} {v : V} (hkv : (k, v) ∈ entries) :
    (entries.foldl (fun m e => m.insert e.1 e.2) m).get k = some v := by
  induction entries generalizing m with
  | nil => cases hkv
  | cons e es ih =>
      rw [List.map_cons, List.nodup_cons] at hnd
      rw [List.foldl_cons]
      rcases List.mem_cons.mp hkv with rfl | hkv
      · rw [get_foldl_insert_of_not_mem _ _ hnd.1, get_insert_self]
      · exact ih _ hnd.2 hkv

end HashMap

/-! ## Little-endian bytes -/

/-- `to_le_bytes` of a `w`-byte unsigned integer: its bytes, least significant first. -/
def toLeBytes : Nat → Nat → List UInt8
  | 0, _ => []
  | w + 1, n => UInt8.ofNat n :: toLeBytes w (n / 256)

/-- `from_le_bytes`: the number whose bytes, least significant first, are the given ones. -/
def fromLeBytes : List UInt8 → Nat
  | [] => 0
  | b :: bs => b.toNat + 256 * fromLeBytes bs

@[simp] theorem length_toLeBytes (w n : Nat) : (toLeBytes w n).length = w := by
  induction w generalizing n <;> simp [toLeBytes, *]

theorem toNat_uInt8_ofNat (n : Nat) : (UInt8.ofNat n).toNat = n % 256 := by
  simp [UInt8.toNat, UInt8.ofNat, BitVec.toNat_ofNat]

theorem uInt8_ofNat_toNat (b : UInt8) : UInt8.ofNat b.toNat = b := by
  apply UInt8.eq_of_toBitVec_eq
  apply BitVec.eq_of_toNat_eq
  simp [UInt8.ofNat, UInt8.toNat, Nat.mod_eq_of_lt b.toBitVec.isLt]

theorem uInt64_ofNat_toNat_mod (d : UInt64) : UInt64.ofNat (d.toNat % 256 ^ 8) = d := by
  apply UInt64.eq_of_toBitVec_eq
  apply BitVec.eq_of_toNat_eq
  simp [UInt64.ofNat, UInt64.toNat, Nat.mod_eq_of_lt d.toBitVec.isLt]

/-- Reading `w` little-endian bytes back gives the number modulo `256 ^ w`. -/
theorem fromLeBytes_toLeBytes (w n : Nat) : fromLeBytes (toLeBytes w n) = n % 256 ^ w := by
  induction w generalizing n with
  | zero => simp [toLeBytes, fromLeBytes, Nat.mod_one]
  | succ w ih =>
      simp only [toLeBytes, fromLeBytes, ih, toNat_uInt8_ofNat]
      rw [Nat.pow_succ', Nat.mod_mul]

end Datafuse
