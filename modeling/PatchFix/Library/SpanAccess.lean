import PatchFix.Library.LittleEndian

/-!
Programs over a span of bytes in 64-bit size arithmetic, with a record of every operation that
could leave the span or lose bits.
-/

namespace SpanAccess

open LittleEndian

/-- No object is larger than the greatest difference of two pointers. -/
structure Span where
  bytes : List UInt8
  bounded : bytes.length < 2 ^ 63

def Span.size (span : Span) : UInt64 := UInt64.ofNat span.bytes.length

@[simp] theorem Span.size_toNat (span : Span) : span.size.toNat = span.bytes.length :=
  UInt64.toNat_ofNat_of_lt' (Nat.lt_trans span.bounded (by decide))

inductive Operation where
  | read (position width : Nat)
  | add (left right : UInt64)
  | toInt (value : UInt64)
  deriving DecidableEq, Repr

def Operation.Safe (span : Span) : Operation → Prop
  | read position width => position + width ≤ span.bytes.length
  | add left right => left.toNat + right.toNat < 2 ^ 64
  | toInt value => value.toNat < 2 ^ 31

structure Traced (Result : Type) where
  value : Result
  operations : List Operation

namespace Traced

variable {First Result : Type}

instance : Monad Traced where
  pure value := ⟨value, []⟩
  bind run next := ⟨(next run.value).value, run.operations ++ (next run.value).operations⟩

def record (operation : Operation) (value : Result) : Traced Result := ⟨value, [operation]⟩

def Safe (span : Span) (run : Traced Result) : Prop :=
  ∀ operation ∈ run.operations, operation.Safe span

@[simp] theorem value_pure (value : Result) : (pure value : Traced Result).value = value := rfl

@[simp] theorem value_bind (run : Traced First) (next : First → Traced Result) :
    (run >>= next).value = (next run.value).value := rfl

@[simp] theorem value_record (operation : Operation) (value : Result) :
    (record operation value).value = value := rfl

@[simp] theorem safe_pure (span : Span) (value : Result) :
    (pure value : Traced Result).Safe span := by
  intro operation member
  cases member

@[simp] theorem safe_bind {span : Span} {run : Traced First} {next : First → Traced Result} :
    (run >>= next).Safe span ↔ run.Safe span ∧ (next run.value).Safe span :=
  List.forall_mem_append

@[simp] theorem safe_record {span : Span} {operation : Operation} {value : Result} :
    (record operation value).Safe span ↔ operation.Safe span := by
  simp [Safe, record]

end Traced

def addSize (left right : UInt64) : Traced UInt64 := .record (.add left right) (left + right)

theorem add_toNat {left right : UInt64} (safe : left.toNat + right.toNat < 2 ^ 64) :
    (left + right).toNat = left.toNat + right.toNat :=
  (UInt64.toNat_add left right).trans (Nat.mod_eq_of_lt safe)

def load (span : Span) (position width : Nat) : Traced Nat :=
  .record (.read position width) (readAt span.bytes position width)

def loadBytes (span : Span) (position count : Nat) : Traced (List UInt8) :=
  .record (.read position count) ((span.bytes.drop position).take count)

end SpanAccess
