import LexKit.Byte

/-!
# Storage

A storage is a run of bytes of a fixed size that blocks share. It starts out as zeros. Only a
beginning of it is held explicitly; every byte past that beginning is zero. What a storage holds is
described by `byte` alone: two storages with equal sizes and equal bytes are interchangeable.
-/

set_option autoImplicit false

namespace LexKit

structure Storage where
  size : Nat
  written : Array UInt8
  written_le : written.size ≤ size

namespace Storage

instance : Inhabited Storage := ⟨⟨0, #[], Nat.le_refl 0⟩⟩

def zeros (size : Nat) : Storage :=
  ⟨size, #[], Nat.zero_le size⟩

def ofBytes (bytes : Bytes) : Storage :=
  ⟨bytes.length, bytes.toArray, by simp⟩

/-- The byte at an index; past the end it counts as zero. -/
def byte (storage : Storage) (index : Nat) : UInt8 :=
  storage.written.getD index 0

/-- The bytes from `start` on, `count` of them or as many as there are. -/
def read (storage : Storage) (start count : Nat) : Bytes :=
  (List.range' start (min count (storage.size - start))).map storage.byte

def toList (storage : Storage) : Bytes :=
  storage.read 0 storage.size

/-- Writes one byte. An index past the end changes nothing. -/
def set (storage : Storage) (index : Nat) (byte : UInt8) : Storage :=
  if inside : index < storage.size then
    if held : index < storage.written.size then
      ⟨storage.size, storage.written.set index byte, by simpa using storage.written_le⟩
    else
      ⟨storage.size,
        (storage.written ++ Array.replicate (index - storage.written.size) 0).push byte,
        by simp only [Array.size_push, Array.size_append, Array.size_replicate]; omega⟩
  else
    storage

def write (storage : Storage) (start : Nat) : Bytes → Storage
  | [] => storage
  | byte :: rest => (storage.set start byte).write (start + 1) rest

/-- Zeroes the explicit bytes among the `count` bytes from `start` on; the others are
zero already. -/
def zeroFrom (storage : Storage) (start : Nat) : Nat → Storage
  | 0 => storage
  | count + 1 => (storage.set start 0).zeroFrom (start + 1) count

def zero (storage : Storage) (start count : Nat) : Storage :=
  storage.zeroFrom start (min count (storage.written.size - start))

/-- Replaces the bytes from `start` up to `stop` by `count` zeros; what follows moves
accordingly. -/
def splice (storage : Storage) (start stop count : Nat) : Storage :=
  let first := min start storage.size
  let last := max first (min stop storage.size)
  let size := first + count + (storage.size - last)
  let tail := storage.written.extract last storage.written.size
  let head := storage.written.extract 0 first
  if tail.isEmpty then
    ⟨size, head, by
      simp only [size, head, Array.size_extract]
      omega⟩
  else
    ⟨size, head ++ Array.replicate (first - head.size + count) 0 ++ tail, by
      have bound := storage.written_le
      simp only [size, head, tail, last, first, Array.size_append, Array.size_replicate,
        Array.size_extract]
      omega⟩

end Storage

end LexKit
