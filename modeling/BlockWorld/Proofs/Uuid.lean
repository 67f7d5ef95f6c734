import Mathlib.Data.List.Induction
import Mathlib.Tactic.IntervalCases
import BlockWorld.Uuid

/-! # The text of an identifier

An identifier is read from five groups of hexadecimal digits and from nothing else, and it is written
as the text that it was read from, in lower case. The groups do not line up with the two halves of an
identifier, but their digits in a row do: the first 16 are the one half and the last 16 the other.

* `Hex.digits`: the digits of a number; `value_digits`, `digits_value`: from a number to its digits and
  back.
* `Hex.IsDigit`: a digit of either case; `mapM_char`, `mapM_spec`: a row of characters and the digits it
  stands for.
* `Uuid.fields`: the five groups that are written; `flatten_fields`: they are the digits of the halves.
* `Uuid.groups_eq_splitOn`: the groups that are read are what the hyphens leave; `Uuid.ofDigits`: what
  their digits make.
* `Uuid.Written`: the texts of identifiers, said without reading them.
* `uuid_text_exact`: what is read, and how it is written. -/

namespace BlockWorld

namespace Hex

/-! ### Numbers and their digits -/

variable {ds : List Nat}

/-- The last `width` digits of `n`, most significant first. -/
def digits : (width n : Nat) → List Nat
  | 0, _ => []
  | width + 1, n => digits width (n / 16) ++ [n % 16]

theorem text_eq (width n : Nat) : text width n = (digits width n).map char := by
  induction width generalizing n with
  | zero => rfl
  | succ width ih => simp [text, digits, ih]

theorem digits_lt (width n : Nat) : ∀ d ∈ digits width n, d < 16 := by
  induction width generalizing n with
  | zero => simp [digits]
  | succ width ih =>
    intro d hd
    rcases List.mem_append.mp hd with hd | hd
    · exact ih _ d hd
    · rw [List.mem_singleton.mp hd]
      omega

theorem length_digits (width n : Nat) : (digits width n).length = width := by
  have h := length_text width n
  rwa [text_eq, List.length_map] at h

theorem value_concat (ds : List Nat) (d : Nat) : value (ds ++ [d]) = 16 * value ds + d := by
  simp [value]

/-- **The number of a row of digits.** -/
theorem value_digits (width n : Nat) : value (digits width n) = n % 16 ^ width := by
  induction width generalizing n with
  | zero => simp [digits, value, Nat.mod_one]
  | succ width ih => rw [digits, value_concat, ih, pow_succ', Nat.mod_mul, Nat.add_comm]

/-- **The digits of a number** are those that it was made of. -/
theorem digits_value (h : ∀ d ∈ ds, d < 16) : digits ds.length (value ds) = ds := by
  induction ds using List.reverseRecOn with
  | nil => rfl
  | append_singleton ds d ih =>
    have last : d < 16 := h d (by simp)
    have front : digits ds.length (value ds) = ds := ih fun x hx => h x (by simp [hx])
    have quotient : (16 * value ds + d) / 16 = value ds := by omega
    have remainder : (16 * value ds + d) % 16 = d := by omega
    rw [List.length_append, List.length_singleton, digits, value_concat, quotient, remainder, front]

theorem value_lt (h : ∀ d ∈ ds, d < 16) : value ds < 16 ^ ds.length := by
  have own := value_digits ds.length (value ds)
  rw [digits_value h] at own
  rw [own]
  exact Nat.mod_lt _ (by positivity)

/-- A row of digits cut in two. -/
theorem text_add (a b n : Nat) : text (a + b) n = text a (n / 16 ^ b) ++ text b n := by
  induction b generalizing n with
  | zero => simp [text]
  | succ b ih =>
    rw [← Nat.add_assoc, text, text, ih, Nat.div_div_eq_div_mul, pow_succ', List.append_assoc]

/-! ### Digits and their characters -/

/-- A hexadecimal digit, of either case. -/
def IsDigit (c : Char) : Prop := c ∈ "0123456789abcdefABCDEF".toList

instance (c : Char) : Decidable (IsDigit c) :=
  inferInstanceAs (Decidable (c ∈ "0123456789abcdefABCDEF".toList))

theorem digit?_char {d : Nat} (h : d < 16) : digit? (char d) = some d := by
  interval_cases d <;> rfl

theorem isDigit_char {d : Nat} (h : d < 16) : IsDigit (char d) := by
  interval_cases d <;> decide

/-- What is read as a digit is one. -/
theorem isDigit_of_digit? {c : Char} {d : Nat} (h : digit? c = some d) : IsDigit c := by
  have ranges : 48 ≤ c.toNat ∧ c.toNat ≤ 57 ∨ 97 ≤ c.toNat ∧ c.toNat ≤ 102 ∨
      65 ≤ c.toNat ∧ c.toNat ≤ 70 := by
    unfold digit? at h
    split_ifs at h with decimal lower upper
    · exact Or.inl decimal
    · exact Or.inr (Or.inl lower)
    · exact Or.inr (Or.inr upper)
  rw [← Char.ofNat_toNat c]
  generalize c.toNat = n at ranges
  rcases ranges with ⟨low, high⟩ | ⟨low, high⟩ | ⟨low, high⟩ <;> interval_cases n <;> decide

/-- A digit stands for a value, and the value is written as the digit in lower case. -/
theorem IsDigit.exists_digit? {c : Char} (h : IsDigit c) :
    ∃ d < 16, digit? c = some d ∧ char d = c.toLower := by
  have all : "0123456789abcdefABCDEF".toList.all fun c =>
      (digit? c).any fun d => d < 16 ∧ char d = c.toLower := by decide
  obtain ⟨d, hd, same⟩ := (Option.any_eq_true _ _).mp (List.all_eq_true.mp all c h)
  obtain ⟨lt, lower⟩ := of_decide_eq_true same
  exact ⟨d, lt, hd, lower⟩

theorem mapM_char : ∀ {ds : List Nat}, (∀ d ∈ ds, d < 16) → (ds.map char).mapM digit? = some ds
  | [], _ => rfl
  | d :: ds, h => by
    have tail := mapM_char fun x hx => h x (List.mem_cons_of_mem d hx)
    simp [List.mapM_cons, digit?_char (h d List.mem_cons_self), tail]

/-- Digits are read. -/
theorem exists_mapM : ∀ {cs : List Char}, (∀ c ∈ cs, IsDigit c) → ∃ ds, cs.mapM digit? = some ds
  | [], _ => ⟨[], rfl⟩
  | c :: cs, h => by
    obtain ⟨d, -, hd, -⟩ := (h c List.mem_cons_self).exists_digit?
    obtain ⟨ds, tail⟩ := exists_mapM fun x hx => h x (List.mem_cons_of_mem c hx)
    exact ⟨d :: ds, by simp [List.mapM_cons, hd, tail]⟩

/-- **What is read** are digits, and their values are written as the digits in lower case. -/
theorem mapM_spec : ∀ {cs : List Char} {ds : List Nat}, cs.mapM digit? = some ds →
    (∀ c ∈ cs, IsDigit c) ∧ (∀ d ∈ ds, d < 16) ∧ ds.map char = cs.map Char.toLower
  | [], ds, h => by
    have none : ds = [] := by simpa using h.symm
    simp [none]
  | c :: cs, ds, h => by
    simp only [List.mapM_cons, Option.bind_eq_bind, Option.bind_eq_some_iff, Option.pure_def,
      Option.some.injEq] at h
    obtain ⟨d, hd, tail, ht, rfl⟩ := h
    have digit := isDigit_of_digit? hd
    obtain ⟨d', lt, hd', lower⟩ := digit.exists_digit?
    rw [hd] at hd'
    cases hd'
    obtain ⟨digits, small, same⟩ := mapM_spec ht
    refine ⟨?_, ?_, by rw [List.map_cons, List.map_cons, lower, same]⟩
    · rintro x (_ | ⟨_, hx⟩)
      · exact digit
      · exact digits x hx
    · rintro x (_ | ⟨_, hx⟩)
      · exact lt
      · exact small x hx

end Hex

namespace Uuid

open Hex

/-! ### What is written -/

/-- The five groups that are written. -/
def fields (u : Uuid) : List (List Char) :=
  [text 8 (u.most.toNat >>> 32), text 4 (u.most.toNat >>> 16), text 4 u.most.toNat,
    text 4 (u.least.toNat >>> 48), text 12 u.least.toNat]

theorem toList_display (u : Uuid) : u.display.toList = ['-'].intercalate u.fields := by
  simp [display, fields, List.intercalate]

theorem length_fields (u : Uuid) : u.fields.map List.length = groupLengths := by
  simp [fields, length_text, groupLengths]

/-- **The fields are the digits of the halves**, cut where a group ends. -/
theorem flatten_fields (u : Uuid) :
    u.fields.flatten = text 16 u.most.toNat ++ text 16 u.least.toNat := by
  have most (n : Nat) : text 16 n = text 8 (n >>> 32) ++ (text 4 (n >>> 16) ++ text 4 n) := by
    have first : n / 16 ^ 4 / 16 ^ 4 = n >>> 32 := by omega
    have second : n / 16 ^ 4 = n >>> 16 := by omega
    rw [text_add 12 4, text_add 8 4, first, second, List.append_assoc]
  have least (n : Nat) : text 16 n = text 4 (n >>> 48) ++ text 12 n := by
    have first : n / 16 ^ 12 = n >>> 48 := by omega
    rw [text_add 4 12, first]
  rw [most, least]
  simp [fields]

theorem isDigit_text {width n : Nat} {c : Char} (h : c ∈ text width n) : IsDigit c := by
  rw [text_eq] at h
  obtain ⟨d, hd, rfl⟩ := List.mem_map.mp h
  exact isDigit_char (digits_lt width n d hd)

theorem isDigit_fields (u : Uuid) : ∀ g ∈ u.fields, ∀ c ∈ g, IsDigit c := by
  simp only [fields, List.forall_mem_cons]
  exact ⟨fun _ => isDigit_text, fun _ => isDigit_text, fun _ => isDigit_text, fun _ => isDigit_text,
    fun _ => isDigit_text, by simp⟩

/-! ### What is read -/

/-- The groups are what the hyphens leave. -/
theorem groups_eq_splitOn (cs : List Char) : groups cs = cs.splitOn '-' := by
  induction cs with
  | nil => rfl
  | cons c cs ih =>
    have split := List.splitOnP_cons_eq_if_modifyHead c cs (p := (· == '-'))
    have some : cs.splitOnP (· == '-') ≠ [] := List.splitOnP_ne_nil _ _
    rw [groups, ih, List.splitOn, List.splitOn, split]
    by_cases hyphen : c = '-'
    · simp [hyphen]
    · cases h : cs.splitOnP (· == '-') with
      | nil => exact absurd h some
      | cons g gs => simp [hyphen]

/-- A text is its groups joined by hyphens. -/
theorem intercalate_groups (cs : List Char) : ['-'].intercalate (groups cs) = cs := by
  rw [groups_eq_splitOn, List.intercalate_splitOn]

/-- Groups of digits that are joined by hyphens are read as the same groups. -/
theorem groups_intercalate {gs : List (List Char)} (some : gs ≠ [])
    (digits : ∀ g ∈ gs, ∀ c ∈ g, IsDigit c) : groups (['-'].intercalate gs) = gs := by
  have hyphen : ¬ IsDigit '-' := by decide
  rw [groups_eq_splitOn]
  exact List.splitOn_intercalate '-' (fun g hg found => hyphen (digits g hg _ found)) some

/-- The identifier of a row of 32 digits. -/
def ofDigits (ds : List Nat) : Uuid :=
  ⟨UInt64.ofNat (value (ds.take 16)), UInt64.ofNat (value (ds.drop 16))⟩

theorem parse_eq_some_iff {s : String} {u : Uuid} : parse s = some u ↔
    (groups s.toList).map List.length = groupLengths ∧
      ∃ ds, (groups s.toList).flatten.mapM digit? = some ds ∧ ofDigits ds = u := by
  rw [parse]
  split
  · rename_i lengths
    rw [Option.map_eq_some_iff, and_iff_right lengths]
    rfl
  · rename_i lengths
    simp [lengths]

/-- The digits of the halves belong to the identifier. -/
theorem ofDigits_digits (u : Uuid) :
    ofDigits (digits 16 u.most.toNat ++ digits 16 u.least.toNat) = u := by
  have half (w : UInt64) : UInt64.ofNat (value (digits 16 w.toNat)) = w := by
    have lt : w.toNat < 16 ^ 16 := w.toNat_lt
    rw [value_digits, Nat.mod_eq_of_lt lt, UInt64.ofNat_toNat]
  have first := length_digits 16 u.most.toNat
  rw [ofDigits, List.take_left' first, List.drop_left' first, half, half]

/-- An identifier is written with the digits that it is made of. -/
theorem flatten_fields_ofDigits {ds : List Nat} (length : ds.length = 32) (small : ∀ d ∈ ds, d < 16) :
    (ofDigits ds).fields.flatten = ds.map char := by
  have half (es : List Nat) (sixteen : es.length = 16) (small : ∀ d ∈ es, d < 16) :
      text 16 (UInt64.ofNat (value es)).toNat = es.map char := by
    have lt : value es < 2 ^ 64 := by
      have bound := value_lt small
      rw [sixteen] at bound
      exact bound
    have own := digits_value small
    rw [sixteen] at own
    rw [UInt64.toNat_ofNat', Nat.mod_eq_of_lt lt, text_eq, own]
  have first := half (ds.take 16) (by simp [length]) fun d hd => small d (List.mem_of_mem_take hd)
  have last := half (ds.drop 16) (by simp [length]) fun d hd => small d (List.mem_of_mem_drop hd)
  rw [flatten_fields, ofDigits, first, last, ← List.map_append, List.take_append_drop]

/-! ### Texts of identifiers -/

/-- Five groups of 8, 4, 4, 4 and 12 hexadecimal digits, with a hyphen between each two. -/
def Written (s : String) : Prop :=
  ∃ a b c d e : List Char,
    s = String.ofList (a ++ '-' :: (b ++ '-' :: (c ++ '-' :: (d ++ '-' :: e)))) ∧
    a.length = 8 ∧ b.length = 4 ∧ c.length = 4 ∧ d.length = 4 ∧ e.length = 12 ∧
    ∀ x ∈ a ++ b ++ c ++ d ++ e, IsDigit x

theorem written_iff (s : String) : Written s ↔
    (groups s.toList).map List.length = groupLengths ∧ ∀ x ∈ (groups s.toList).flatten, IsDigit x := by
  have join (a b c d e : List Char) : a ++ '-' :: (b ++ '-' :: (c ++ '-' :: (d ++ '-' :: e))) =
      ['-'].intercalate [a, b, c, d, e] := by
    simp [List.intercalate]
  constructor
  · rintro ⟨a, b, c, d, e, rfl, ha, hb, hc, hd, he, digits⟩
    have split : groups (['-'].intercalate [a, b, c, d, e]) = [a, b, c, d, e] := by
      refine groups_intercalate (by simp) fun g hg x hx => digits x ?_
      have one : x ∈ [a, b, c, d, e].flatten := List.mem_flatten.mpr ⟨g, hg, hx⟩
      simpa using one
    rw [String.toList_ofList, join, split]
    exact ⟨by simp [groupLengths, ha, hb, hc, hd, he], fun x hx => digits x (by simpa using hx)⟩
  · rintro ⟨lengths, digits⟩
    obtain ⟨a, gs, split, ha, rest⟩ := List.map_eq_cons_iff.mp lengths
    obtain ⟨b, gs, rfl, hb, rest⟩ := List.map_eq_cons_iff.mp rest
    obtain ⟨c, gs, rfl, hc, rest⟩ := List.map_eq_cons_iff.mp rest
    obtain ⟨d, gs, rfl, hd, rest⟩ := List.map_eq_cons_iff.mp rest
    obtain ⟨e, gs, rfl, he, rest⟩ := List.map_eq_cons_iff.mp rest
    rw [List.map_eq_nil_iff.mp rest] at split
    rw [split] at digits
    refine ⟨a, b, c, d, e, ?_, ha, hb, hc, hd, he, fun x hx => digits x (by simpa using hx)⟩
    rw [join, ← split, intercalate_groups, String.ofList_toList]

theorem parse_isSome_iff (s : String) : (parse s).isSome ↔ Written s := by
  rw [written_iff, Option.isSome_iff_exists]
  simp only [parse_eq_some_iff]
  constructor
  · rintro ⟨u, lengths, ds, read, -⟩
    exact ⟨lengths, (mapM_spec read).1⟩
  · rintro ⟨lengths, digits⟩
    obtain ⟨ds, read⟩ := exists_mapM digits
    exact ⟨_, lengths, ds, read, rfl⟩

/-- **What was written is read.** -/
theorem parse_display (u : Uuid) : parse u.display = some u := by
  have split : groups u.display.toList = u.fields := by
    rw [toList_display]
    exact groups_intercalate (by simp [fields]) u.isDigit_fields
  have read : u.fields.flatten.mapM digit? =
      some (digits 16 u.most.toNat ++ digits 16 u.least.toNat) := by
    rw [flatten_fields, text_eq, text_eq, ← List.map_append]
    refine mapM_char fun d hd => ?_
    rcases List.mem_append.mp hd with hd | hd
    · exact digits_lt _ _ d hd
    · exact digits_lt _ _ d hd
  rw [parse_eq_some_iff, split]
  exact ⟨u.length_fields, _, read, u.ofDigits_digits⟩

theorem map_intercalate (f : Char → Char) : ∀ gs : List (List Char),
    (['-'].intercalate gs).map f = [f '-'].intercalate (gs.map (List.map f))
  | [] => rfl
  | [g] => by simp [List.intercalate]
  | g :: g' :: gs => by
    have tail := map_intercalate f (g' :: gs)
    rw [List.map_cons] at tail
    rw [List.map_cons, List.map_cons, List.intercalate_cons_cons, List.intercalate_cons_cons,
      List.map_append, List.map_append, tail]
    rfl

/-- **What was read is written in lower case.** -/
theorem display_of_parse {s : String} {u : Uuid} (h : parse s = some u) : u.display = s.toLower := by
  obtain ⟨lengths, ds, read, rfl⟩ := parse_eq_some_iff.mp h
  obtain ⟨-, small, lower⟩ := mapM_spec read
  have length : ds.length = 32 := by
    have count := congrArg List.length lower
    rw [List.length_map, List.length_map, List.length_flatten, lengths] at count
    exact count
  -- The groups are determined by their lengths and by all digits in a row.
  have same : (ofDigits ds).fields = (groups s.toList).map (List.map Char.toLower) := by
    refine List.eq_iff_flatten_eq.mpr ⟨?_, ?_⟩
    · rw [flatten_fields_ofDigits length small, lower, List.map_flatten]
    · rw [length_fields, List.map_map, ← lengths]
      exact List.map_congr_left fun g _ => (List.length_map ..).symm
  have text := map_intercalate Char.toLower (groups s.toList)
  rw [intercalate_groups] at text
  have lowered : s.toLower = s.map Char.toLower := rfl
  rw [← String.toList_inj, toList_display, same, lowered, String.toList_map, text]
  rfl

end Uuid

/-- **The text of an identifier is exact.** A text is read if and only if it is five groups of 8, 4, 4, 4
and 12 hexadecimal digits of either case, with a hyphen between each two and nothing else. It is then read
as the one identifier that is written as the text in lower case. Every identifier is read from what is
written for it. -/
theorem uuid_text_exact (s : String) (u : Uuid) :
    ((Uuid.parse s).isSome ↔ Uuid.Written s) ∧
    (Uuid.parse s = some u ↔ Uuid.Written s ∧ u.display = s.toLower) ∧
    Uuid.parse u.display = some u := by
  refine ⟨Uuid.parse_isSome_iff s, ⟨fun read => ?_, ?_⟩, u.parse_display⟩
  · exact ⟨(Uuid.parse_isSome_iff s).mp (by simp [read]), Uuid.display_of_parse read⟩
  · rintro ⟨written, lower⟩
    obtain ⟨v, read⟩ := Option.isSome_iff_exists.mp ((Uuid.parse_isSome_iff s).mpr written)
    have same : v.display = u.display := by rw [Uuid.display_of_parse read, lower]
    have again := v.parse_display
    rw [same, u.parse_display] at again
    rw [read, again]

end BlockWorld
