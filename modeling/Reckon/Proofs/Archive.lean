import Reckon.Engine.Tables
import Reckon.Proofs.Tables

/-!
The file of tables. Numbers, texts and lists are read wherever they were written, whatever follows them
(`Tables.Decodes`), since each of them stands after its length. So the buckets of a database are read from its file
(`Tables.decode?_encode`).
-/

namespace Reckon.Tables

variable {α : Type}

/-- What is written is read, whatever follows it. -/
def Decodes (encode : α → String) (decode? : List Char → Option (α × List Char)) : Prop :=
  ∀ a rest, decode? ((encode a).toList ++ rest) = some (a, rest)

theorem decodes_number : Decodes encodeNumber decodeNumber? := by
  intro n rest
  have spelled : (encodeNumber n).toList ++ rest = Nat.toDigits 10 n ++ ':' :: rest := by
    simp [encodeNumber]
  have each : ∀ c ∈ Nat.toDigits 10 n, c.isDigit = true := fun _ member =>
    Nat.isDigit_of_mem_toDigits (by decide) (by decide) member
  have digits : (Nat.toDigits 10 n ++ ':' :: rest).takeWhile Char.isDigit = Nat.toDigits 10 n := by
    rw [List.takeWhile_append_of_pos each]
    simp
  have behind : (Nat.toDigits 10 n ++ ':' :: rest).dropWhile Char.isDigit = ':' :: rest := by
    rw [List.dropWhile_append_of_pos each]
    simp
  have value : (Nat.toDigits 10 n).foldl (fun value c => value * 10 + (c.toNat - 0x30)) 0 = n := by
    have read : Nat.ofDigitChars 10 (Nat.toDigits 10 n) 0 = n := Nat.ofDigitChars_ten_toDigits
    rw [Nat.ofDigitChars] at read
    simpa [Nat.mul_comm] using read
  have some : (Nat.toDigits 10 n).isEmpty = false := by simp
  simp only [decodeNumber?, spelled, digits, behind, value, some, Bool.false_eq_true, if_false]

theorem decodes_text : Decodes encodeText decodeText? := by
  intro text rest
  have enough : ¬ (text.toList ++ rest).length < text.length := by
    rw [List.length_append, String.length_toList]
    omega
  rw [encodeText, String.toList_append, List.append_assoc, decodeText?, decodes_number]
  simp only [Option.bind_eq_bind, Option.bind_some, if_neg enough]
  rw [← String.length_toList, List.take_left, List.drop_left, String.ofList_toList]

theorem decodes_entry {encode : α → String} {decode? : List Char → Option (α × List Char)}
    (decodes : Decodes encode decode?) : Decodes (encodeNamed encode) (decodeNamed? decode?) := by
  rintro ⟨name, entry⟩ rest
  rw [encodeNamed, String.toList_append, List.append_assoc, decodeNamed?, decodes_text]
  simp only [Option.bind_eq_bind, Option.bind_some]
  rw [decodes]
  rfl

/-- Items are read one after the other. -/
theorem decodeTimes?_encode {encode : α → String} {decode? : List Char → Option (α × List Char)}
    (decodes : Decodes encode decode?) (items : List α) (rest : List Char) :
    decodeTimes? decode? items.length ((items.flatMap fun item => (encode item).toList) ++ rest) =
      some (items, rest) := by
  induction items with
  | nil => rfl
  | cons item items ih =>
    rw [List.length_cons, List.flatMap_cons, List.append_assoc, decodeTimes?, decodes]
    simp only [Option.bind_eq_bind, Option.bind_some]
    rw [ih]
    rfl

theorem decodes_each {encode : α → String} {decode? : List Char → Option (α × List Char)}
    (decodes : Decodes encode decode?) : Decodes (encodeEach encode) (decodeEach? decode?) := by
  intro items rest
  have spelled : (String.join (items.map encode)).toList = items.flatMap fun item => (encode item).toList := by
    simp [String.toList_join, List.flatMap_map]
  rw [encodeEach, String.toList_append, List.append_assoc, spelled, decodeEach?, decodes_number]
  exact decodeTimes?_encode decodes items rest

theorem decodes_table {encode : α → String} {decode? : List Char → Option (α × List Char)}
    (decodes : Decodes encode decode?) : Decodes (encodeTable encode) (decodeTable? decode?) := by
  intro table rest
  rw [encodeTable, decodeTable?, decodes_each (decodes_entry decodes)]
  simp only [Option.bind_eq_bind, Option.bind_some]
  rw [Table.ofList_entries]

/-- The buckets of a database are read from its file. -/
theorem decode?_encode (buckets : Buckets) : decode? (encode buckets) = some buckets := by
  have spelled : (encode buckets).toList = heading.toList ++ (encodeTable (encodeTable encodeText) buckets).toList := by
    rw [encode, String.toList_append]
  have filled : encode buckets ≠ "" := by
    intro same
    rw [same] at spelled
    exact absurd (List.append_eq_nil_iff.mp spelled.symm).1 (by decide)
  have heads : heading.toList.isPrefixOf (encode buckets).toList = true := by
    rw [List.isPrefixOf_iff_prefix, spelled]
    exact List.prefix_append _ _
  have read := decodes_table (decodes_table decodes_text) buckets []
  rw [List.append_nil] at read
  rw [decode?, if_neg filled, if_pos heads, spelled, ← String.length_toList, List.drop_left, read]

end Reckon.Tables
