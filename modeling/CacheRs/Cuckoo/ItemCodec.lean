/-
**The item codec of the cuckoo cache.**

An insert checks the sum of the lengths it is given, and writes each length into one byte. A value
length of zero stands for an integer.

* `codes_iff`: **an accepted item decodes to its key and value exactly when the key has at most 255
  bytes and the value is an integer or has 1 to 255 bytes**; then every function of the item stays
  inside its slot;
* `empty_value_run`: an accepted empty value is read as an integer, past the slot's end.
-/

import CacheRs.Cuckoo.Effects

namespace CacheRs.Cuckoo

open KeyValue

/-- The slot of an insert. -/
def insertedSlot (config : Config) (cache : Cache) (key : Bytes) (draw : UInt64) : Nat :=
  (findSlotForInsert config cache.elapsed cache.data draw key (positions config key)).1.1

/-- A slot decodes to a key and a value, and the functions of its item stay inside the slot. -/
structure Codes (config : Config) (after : Cache) (pos : Nat) (key : Bytes) (value : Value) :
    Prop where
  decodedKey : slotKey config after.data pos = key
  decodedValue : TinyItem.value after.data (slotOffset config pos) = value
  define : TinyItem.Within config.itemSize (TinyItem.defineAccesses key value)
  read : TinyItem.Within config.itemSize
    (TinyItem.valueAccesses after.data (slotOffset config pos))
  update : TinyItem.Within config.itemSize
    (TinyItem.updateAccesses after.data (slotOffset config pos))

section Lengths

variable {memory : Memory} {start expire : Nat} {key : Bytes} {value : Value}

/-- The length bytes of a new item keep the lengths' low eight bits. -/
theorem lengths_define : TinyItem.klen (TinyItem.define memory start key value expire) start =
      key.length % 256 ∧
    TinyItem.rawVlen (TinyItem.define memory start key value expire) start =
      (TinyItem.encodeValue value).1.toNat := by
  have length := @TinyItem.length_itemBytes key value expire
  unfold TinyItem.headerSize at length
  refine ⟨?_, ?_⟩
  · rw [TinyItem.klen, TinyItem.define_eq, Memory.write_inside (by omega)]
    simp [TinyItem.itemBytes]
  · rw [TinyItem.rawVlen, TinyItem.define_eq, Memory.write_inside (by omega)]
    simp [TinyItem.itemBytes]

/-- Only a key of at most 255 bytes is read back. -/
theorem short_of_key (same : TinyItem.key (TinyItem.define memory start key value expire) start = key) :
    key.length ≤ 255 := by
  have length := congrArg List.length same
  rw [TinyItem.key, Memory.length_read, lengths_define.1] at length
  omega

/-- Only a value that the layout can tell from the other kind is read back. -/
theorem storable_of_value
    (same : TinyItem.value (TinyItem.define memory start key value expire) start = value) :
    TinyItem.Storable value := by
  cases value with
  | u64 number => trivial
  | bytes bytes =>
    have vlen : TinyItem.rawVlen (TinyItem.define memory start key (.bytes bytes) expire) start =
        (TinyItem.encodeValue (.bytes bytes)).1.toNat := lengths_define.2
    unfold TinyItem.value at same
    split at same
    · cases same
    · rename_i text
      have length := congrArg Value.length same
      rw [Value.length, Memory.length_read, Value.length] at length
      rw [length] at vlen text
      have byte := (TinyItem.encodeValue (.bytes bytes)).1.toNat_lt
      rw [← vlen] at byte
      exact ⟨List.ne_nil_of_length_pos (Nat.pos_of_ne_zero text), by omega⟩

end Lengths

section Codec

variable {config : Config} {cache : Cache} {key : Bytes} {value : Value} {ttl : Nat} {draw : UInt64}

/-- What an accepted insert fits and leaves. -/
theorem inserted (accepted : (insert config cache key value ttl draw).1 = .ok ()) :
    TinyItem.headerSize + key.length + value.length ≤ config.itemSize ∧
      ∃ memory, (insert config cache key value ttl draw).2.data =
        TinyItem.define memory (slotOffset config (insertedSlot config cache key draw)) key value
          (computeExpire config cache.elapsed ttl) := by
  by_cases room : TinyItem.headerSize + key.length + value.length > config.itemSize
  · have refused : insert config cache key value ttl draw = (.error (.itemOversized
        (TinyItem.headerSize + key.length + value.length) config.itemSize), cache) := if_pos room
    rw [refused] at accepted
    cases accepted
  · refine ⟨by omega, clearSlot config (findSlotForInsert config cache.elapsed cache.data draw key
      (positions config key)).2 (insertedSlot config cache key draw), ?_⟩
    exact congrArg (fun result : Except CuckooCacheError Unit × Cache => result.2.data) (if_neg room)

/-- **Exactly the items whose lengths fit their bytes are read back.** -/
theorem codes_iff (accepted : (insert config cache key value ttl draw).1 = .ok ()) :
    Codes config (insert config cache key value ttl draw).2 (insertedSlot config cache key draw) key
      value ↔ key.length ≤ 255 ∧ TinyItem.Storable value := by
  obtain ⟨room, memory, data⟩ := inserted accepted
  have stamp := computeExpire_lt config cache.elapsed ttl
  constructor
  · intro codes
    have sameKey := codes.decodedKey
    have sameValue := codes.decodedValue
    rw [slotKey, data] at sameKey
    rw [data] at sameValue
    exact ⟨short_of_key sameKey, storable_of_value sameValue⟩
  · rintro ⟨short, storable⟩
    have inside : TinyItem.Inside (insert config cache key value ttl draw).2.data
        (slotOffset config (insertedSlot config cache key draw)) config.itemSize := by
      rw [data, TinyItem.inside_define short stamp, storable.vlen.2]
      exact room
    refine ⟨?_, ?_, ?_, TinyItem.within_valueAccesses.mpr inside,
      TinyItem.within_updateAccesses.mpr inside⟩
    · rw [slotKey, data]
      exact (TinyItem.define_header short stamp memory _).2.2.2
    · rw [data]
      exact TinyItem.value_define short stamp storable memory _
    · simp only [TinyItem.Within, TinyItem.defineAccesses, List.forall_mem_cons]
      refine ⟨by omega, by omega, by omega, fun _ member => by cases member⟩

end Codec

/-- One slot of eight bytes. -/
def tightConfig : Config where
  itemSize := 8
  nitem := 1
  maxDisplace := 2
  maxTtl := 1000
  policy := .random
  hashers := fun _ _ => 0
  header_lt_itemSize := by decide
  nitem_pos := by decide
  total_lt := by decide
  maxTtl_le := by decide

/-- A key and a value of one byte each. -/
theorem codes_iff_short :
    Codes tightConfig (insert tightConfig fromBuilder [107] (.bytes [118]) 0 0).2
        (insertedSlot tightConfig fromBuilder [107] 0) [107] (.bytes [118]) ↔
      [(107 : UInt8)].length ≤ 255 ∧ TinyItem.Storable (.bytes [118]) :=
  codes_iff (by decide)

/-- **An empty value** fits a slot of eight bytes behind a key of one; it decodes as an integer, whose
bytes end behind the slot. -/
theorem empty_value_run :
    (insert tightConfig fromBuilder [107] (.bytes []) 0 0).1 = .ok () ∧
    ¬ Codes tightConfig (insert tightConfig fromBuilder [107] (.bytes []) 0 0).2
      (insertedSlot tightConfig fromBuilder [107] 0) [107] (.bytes []) ∧
    ¬ TinyItem.Within tightConfig.itemSize (TinyItem.valueAccesses
      (insert tightConfig fromBuilder [107] (.bytes []) 0 0).2.data
      (slotOffset tightConfig (insertedSlot tightConfig fromBuilder [107] 0))) := by
  refine ⟨by decide, fun codes => ?_, by decide⟩
  exact absurd codes.decodedValue (by decide)

end CacheRs.Cuckoo
