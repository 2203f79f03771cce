import Mathlib.Tactic.Ring
import Stablecoin.Principal.Text

/-!
# The text of a principal reads back

The symbols of a base-32 form stand for all bits of the bytes and at most four more, which are too
few for another byte. The dashes are dropped on reading and every symbol is already in lower case,
so the bytes are found again, and with them the text that they are checked against.
-/
namespace Stablecoin

/-- A list whose items are read one by one as something else. -/
theorem mapM_map_of_forall {α β γ : Type} {read : β → Option γ} {write : α → β} {value : α → γ}
    {items : List α} (each : ∀ a ∈ items, read (write a) = some (value a)) :
    (items.map write).mapM read = some (items.map value) := by
  induction items with
  | nil => rfl
  | cons a rest ih =>
    rw [List.map_cons, List.mapM_cons, each a List.mem_cons_self,
      ih fun b member => each b (List.mem_cons_of_mem a member)]
    rfl

namespace Base32

/-! ### Bits -/

theorem length_bits (width n : Nat) : (bits width n).length = width := by simp [bits]

theorem bits_succ (width n : Nat) : bits (width + 1) n = n.testBit width :: bits width n := by
  simp [bits, List.range_succ]

theorem foldl_bits (n : Nat) (bs : List Bool) :
    bs.foldl (fun n b => 2 * n + b.toNat) n = n * 2 ^ bs.length + ofBits bs := by
  induction bs generalizing n with
  | nil => simp [ofBits]
  | cons b rest ih =>
    have first : ofBits (b :: rest) = (2 * 0 + b.toNat) * 2 ^ rest.length + ofBits rest := ih _
    rw [List.foldl_cons, ih, first, List.length_cons, pow_succ]
    ring

theorem ofBits_cons (b : Bool) (bs : List Bool) :
    ofBits (b :: bs) = b.toNat * 2 ^ bs.length + ofBits bs := by
  rw [ofBits, List.foldl_cons, foldl_bits]
  simp

theorem ofBits_bits (width n : Nat) : ofBits (bits width n) = n % 2 ^ width := by
  induction width with
  | zero => simp [bits, ofBits, Nat.mod_one]
  | succ width ih =>
    rw [bits_succ, ofBits_cons, ih, length_bits, Nat.toNat_testBit, pow_succ, Nat.mod_mul]
    ring

theorem ofBits_lt (bs : List Bool) : ofBits bs < 2 ^ bs.length := by
  induction bs with
  | nil => decide
  | cons b rest ih =>
    have high : b.toNat * 2 ^ rest.length ≤ 1 * 2 ^ rest.length :=
      Nat.mul_le_mul_right _ (Bool.toNat_le b)
    rw [ofBits_cons, List.length_cons, pow_succ]
    omega

theorem bits_ofBits : ∀ {g : List Bool}, g.length = 5 → bits 5 (ofBits g) = g
  | [a, b, c, d, e], _ => by revert a b c d e; decide

/-! ### Symbols -/

theorem group?_symbol : ∀ {n : Nat}, n < 32 → group? (symbol n) = some n := by decide

theorem toLower_symbol : ∀ {n : Nat}, n < 32 → (symbol n).toLower = symbol n := by decide

theorem symbol_ne_dash : ∀ {n : Nat}, n < 32 → symbol n ≠ '-' := by decide

/-! ### Groups and bytes -/

theorem length_of_mem_groups {g : List Bool} :
    ∀ {bs : List Bool}, g ∈ groups bs → g.length = 5
  | _ :: _ :: _ :: _ :: _ :: _, member => by
    rcases List.mem_cons.mp member with rfl | later
    · rfl
    · exact length_of_mem_groups later
  | [], member => nomatch member
  | [_], member | [_, _], member | [_, _, _], member | [_, _, _, _], member => by
    rw [List.mem_singleton.mp member]
    rfl

theorem ofBits_lt_of_mem_groups {g bs : List Bool} (member : g ∈ groups bs) : ofBits g < 32 := by
  have small := ofBits_lt g
  rwa [length_of_mem_groups member] at small

/-- The groups hold the bit string and less than a group of zeros behind it. -/
theorem flatten_groups : ∀ bs : List Bool,
    ∃ fill < 5, (groups bs).flatten = bs ++ List.replicate fill false
  | _ :: _ :: _ :: _ :: _ :: rest => by
    obtain ⟨fill, few, flat⟩ := flatten_groups rest
    exact ⟨fill, few, by simp [groups, flat]⟩
  | [] => ⟨0, by decide, rfl⟩
  | [_] => ⟨4, by decide, rfl⟩
  | [_, _] => ⟨3, by decide, rfl⟩
  | [_, _, _] => ⟨2, by decide, rfl⟩
  | [_, _, _, _] => ⟨1, by decide, rfl⟩

theorem wholeBytes_short {bs : List Bool} (short : bs.length < 8) : wholeBytes bs = [] := by
  unfold wholeBytes
  split
  next => simp at short; omega
  next => rfl

theorem wholeBytes_append {byte rest : List Bool} (whole : byte.length = 8) :
    wholeBytes (byte ++ rest) = byte :: wholeBytes rest := by
  match byte, whole with
  | [_, _, _, _, _, _, _, _], _ => rfl

theorem wholeBytes_flatMap {bytes : List UInt8} {rest : List Bool} (short : rest.length < 8) :
    wholeBytes (bytes.flatMap (fun b => bits 8 b.toNat) ++ rest)
      = bytes.map fun b => bits 8 b.toNat := by
  induction bytes with
  | nil => exact wholeBytes_short short
  | cons b later ih =>
    rw [List.flatMap_cons, List.append_assoc, wholeBytes_append (length_bits 8 _), ih,
      List.map_cons]

theorem ofNat_ofBits_bits (b : UInt8) : UInt8.ofNat (ofBits (bits 8 b.toNat)) = b := by
  rw [ofBits_bits, Nat.mod_eq_of_lt b.toNat_lt, UInt8.ofNat_toNat]

/-! ### The form of bytes -/

theorem exists_symbol_of_mem_encode {bytes : List UInt8} {c : Char} (member : c ∈ encode bytes) :
    ∃ n < 32, c = symbol n := by
  obtain ⟨g, group, rfl⟩ := List.mem_map.mp member
  exact ⟨ofBits g, ofBits_lt_of_mem_groups group, rfl⟩

theorem decode?_encode (bytes : List UInt8) : decode? (encode bytes) = some bytes := by
  have read : (encode bytes).mapM group?
      = some ((groups (bytes.flatMap fun b => bits 8 b.toNat)).map ofBits) :=
    mapM_map_of_forall fun g group => group?_symbol (ofBits_lt_of_mem_groups group)
  obtain ⟨fill, few, flat⟩ := flatten_groups (bytes.flatMap fun b => bits 8 b.toNat)
  have same : ((groups (bytes.flatMap fun b => bits 8 b.toNat)).map ofBits).flatMap (bits 5)
      = bytes.flatMap (fun b => bits 8 b.toNat) ++ List.replicate fill false := by
    have regrouped : ∀ g ∈ groups (bytes.flatMap fun b => bits 8 b.toNat), bits 5 (ofBits g) = g :=
      fun g group => bits_ofBits (length_of_mem_groups group)
    rw [← flat, List.flatMap_map, List.flatMap_def, List.map_congr_left regrouped, List.map_id']
  have short : (List.replicate fill false).length < 8 := by
    rw [List.length_replicate]
    omega
  rw [decode?, read, Option.bind_eq_bind, Option.bind_some, same, wholeBytes_flatMap short,
    List.map_map]
  simp [Function.comp_def, ofNat_ofBits_bits]

end Base32

/-! ### Dashes -/

theorem eq_dash_or_mem_of_mem_dashed {c : Char} :
    ∀ {cs : List Char}, c ∈ dashed cs → c = '-' ∨ c ∈ cs := by
  intro cs member
  fun_induction dashed cs with
  | case1 a b c d e f rest ih =>
    simp only [List.mem_cons] at member ih ⊢
    tauto
  | case2 => exact Or.inr member

theorem filter_dashed {cs : List Char} (none : ∀ c ∈ cs, c ≠ '-') :
    (dashed cs).filter (· ≠ '-') = cs := by
  fun_induction dashed cs with
  | case1 a b c d e f rest ih =>
    simp only [List.forall_mem_cons] at none ih
    obtain ⟨na, nb, nc, nd, ne, later⟩ := none
    simpa [na, nb, nc, nd, ne] using ih later
  | case2 cs => exact List.filter_eq_self.mpr fun c member => decide_eq_true (none c member)

namespace Principal

theorem map_toLower_chars (p : Principal) : p.chars.map Char.toLower = p.chars := by
  have lower : ∀ c ∈ p.chars, c.toLower = id c := fun c member => by
    rcases eq_dash_or_mem_of_mem_dashed member with rfl | encoded
    · rfl
    · obtain ⟨n, small, rfl⟩ := Base32.exists_symbol_of_mem_encode encoded
      exact Base32.toLower_symbol small
  rw [List.map_congr_left lower, List.map_id]

/-- The text of a principal gives back its bytes. -/
theorem ofText?_text (p : Principal) : ofText? p.text = some p := by
  have plain : p.chars.filter (· ≠ '-') = Base32.encode (crc32Bytes p.bytes ++ p.bytes) := by
    refine filter_dashed fun c member => ?_
    obtain ⟨n, small, rfl⟩ := Base32.exists_symbol_of_mem_encode member
    exact Base32.symbol_ne_dash small
  have bytes : (crc32Bytes p.bytes ++ p.bytes).drop 4 = p.bytes := rfl
  have same : ofBytes? p.bytes = some p := ofBytes?_eq_some.mpr rfl
  rw [ofText?, text, String.toList_ofList, ofChars?, map_toLower_chars, plain,
    Base32.decode?_encode]
  simp [bytes, same]

example : ofText? "aaaaa-aa" = some { bytes := [] } := by decide

end Principal

end Stablecoin
