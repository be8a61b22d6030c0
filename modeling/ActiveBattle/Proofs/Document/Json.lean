import ActiveBattle.Document.Json

/-!
# JSON is read as it was written

The reader gives back every document of the compact writer, if all its numbers fit 64 bits and it
does not lie deeper than values are read (`parse_write`). The proof follows the writer: whatever a
document is followed by, reading its text leaves just that.
-/

namespace ActiveBattle.Document.Json

set_option autoImplicit false

/-- What may follow a value: the end, or what goes on in the list or table around it. -/
def Ends (rest : Rest) : Prop := ∀ c ∈ rest.head?, c = ',' ∨ c = ']' ∨ c = '\x7d'

theorem Ends.cons {c : Char} {rest : Rest} (h : c = ',' ∨ c = ']' ∨ c = '\x7d') :
    Ends (c :: rest) := by
  intro d hd
  rwa [← Option.some.inj hd]

/-! ### Numbers -/

theorem digitsValue_toDigits (n : Nat) : digitsValue (Nat.toDigits 10 n) = n := by
  have hvalue (ds : List Char) : digitsValue ds = Nat.ofDigitChars 10 ds 0 := by
    unfold digitsValue
    rw [Nat.ofDigitChars_eq_foldl]
    simp only [Nat.mul_comm]
  rw [hvalue, Nat.ofDigitChars_ten_toDigits]

/-- A number of more than one digit does not begin with a zero. -/
theorem toDigits_ne_zero_cons (n : Nat) (d : Char) (ds : List Char) :
    Nat.toDigits 10 n ≠ '0' :: d :: ds := by
  have hhead (n : Nat) (h : 0 < n) : (Nat.toDigits 10 n).head? ≠ some '0' := by
    induction n using Nat.strongRecOn with
    | ind n ih =>
      by_cases hn : n < 10
      · rw [Nat.toDigits_of_lt_base hn, List.head?_cons]
        intro hzero
        have hvalue := Nat.toNat_digitChar_sub_48_of_lt_ten hn
        rw [Option.some.inj hzero] at hvalue
        exact absurd hvalue (Nat.ne_of_lt h)
      · have hfront := ih (n / 10) (by omega) (by omega)
        obtain ⟨c, cs, hcs⟩ :=
          List.exists_cons_of_ne_nil (Nat.toDigits_ne_nil (n := n / 10) (b := 10))
        rw [hcs] at hfront
        rw [Nat.toDigits_of_base_le (by decide) (Nat.not_lt.mp hn), hcs]
        exact hfront
  intro h
  cases n with
  | zero => simp at h
  | succ n =>
    refine hhead (n + 1) (Nat.succ_pos n) ?_
    rw [h, List.head?_cons]

theorem digits_append {ds : List Char} (hds : ∀ c ∈ ds, c.isDigit = true) {rest : Rest}
    (hrest : Ends rest) :
    digits (ds ++ rest) = (ds, rest) := by
  have hstops : rest.takeWhile Char.isDigit = [] ∧ rest.dropWhile Char.isDigit = rest := by
    cases rest with
    | nil => exact ⟨rfl, rfl⟩
    | cons c rest =>
      have hc : c.isDigit = false := by
        rcases hrest c rfl with rfl | rfl | rfl <;> rfl
      simp [hc]
  unfold digits
  rw [List.takeWhile_append_of_pos hds, List.dropWhile_append_of_pos hds, hstops.1, hstops.2,
    List.append_nil]

theorem readNumber_toDigits (negative : Bool) (n : Nat) {rest : Rest} (hrest : Ends rest) :
    readNumber negative (Nat.toDigits 10 n ++ rest) =
      some (numberOf negative (Nat.toDigits 10 n) [], rest) := by
  have hdigits : digits (Nat.toDigits 10 n ++ rest) = (Nat.toDigits 10 n, rest) :=
    digits_append (fun c hc => Nat.isDigit_of_mem_toDigits (by decide) (by decide) hc) hrest
  have hfraction : readFraction rest = some ([], rest) := by
    unfold readFraction
    split
    · rcases hrest '.' rfl with h | h | h <;> contradiction
    · rfl
  have hexponent : readExponent rest = some ([], rest) := by
    unfold readExponent
    split
    · rename_i c tail
      have hc : ¬(c = 'e' ∨ c = 'E') := by
        rcases hrest c rfl with rfl | rfl | rfl <;> decide
      exact if_neg hc
    · rfl
  unfold readNumber
  rw [hdigits]
  split
  · rename_i hnil
    exact absurd (Prod.mk.inj hnil).1 Nat.toDigits_ne_nil
  · rename_i hzero
    exact absurd (Prod.mk.inj hzero).1 (toDigits_ne_zero_cons n _ _)
  · rename_i whole after _ _ hwhole
    obtain ⟨rfl, rfl⟩ := Prod.mk.inj hwhole
    rw [hfraction, Option.bind_eq_bind, Option.bind_some]
    dsimp only
    rw [hexponent, Option.bind_some]
    rfl

theorem readScalar_of_isDigit {c : Char} {cs : Rest} (h : c.isDigit = true) :
    readScalar (c :: cs) = readNumber false (c :: cs) := by
  unfold readScalar
  split <;> first
    | rfl
    | (rename_i heq
       obtain ⟨rfl, -⟩ := List.cons.inj heq
       exact absurd h (by decide))

theorem readScalar_int {n : Int} (hlo : -9223372036854775808 ≤ n) (hhi : n < 18446744073709551616)
    {rest : Rest} (hrest : Ends rest) :
    readScalar ((toString n).toList ++ rest) = some (.int n, rest) := by
  rw [Int.toString_eq_repr, Int.repr_eq_if]
  split
  · rename_i hn
    rw [Nat.repr_eq_ofList_toDigits, String.toList_ofList]
    have hread := readNumber_toDigits false n.toNat hrest
    obtain ⟨c, cs, hcs⟩ := List.exists_cons_of_ne_nil (Nat.toDigits_ne_nil (n := n.toNat) (b := 10))
    have hmem : c ∈ Nat.toDigits 10 n.toNat := by
      rw [hcs]
      exact List.mem_cons_self
    have hdigit : c.isDigit = true := Nat.isDigit_of_mem_toDigits (by decide) (by decide) hmem
    have hvalue : numberOf false (Nat.toDigits 10 n.toNat) [] = .int n := by
      unfold numberOf
      rw [digitsValue_toDigits]
      have hbound : n.toNat < 18446744073709551616 := by omega
      simp [hbound, Int.toNat_of_nonneg hn]
    rw [hvalue, hcs, List.cons_append] at hread
    rw [hcs, List.cons_append, readScalar_of_isDigit hdigit, hread]
  · rename_i hn
    have hread := readNumber_toDigits true (-n).toNat hrest
    have hvalue : numberOf true (Nat.toDigits 10 (-n).toNat) [] = .int n := by
      unfold numberOf
      rw [digitsValue_toDigits]
      have hbound : 0 < (-n).toNat ∧ (-n).toNat ≤ 9223372036854775808 := by omega
      have hnonneg : 0 ≤ -n := by omega
      simp [hbound, Int.toNat_of_nonneg hnonneg]
    rw [hvalue] at hread
    rw [Nat.repr_eq_ofList_toDigits,
      String.toList_append, String.toList_ofList (l := Nat.toDigits 10 (-n).toNat)]
    exact hread

/-! ### Texts -/

theorem hexValue?_hexDigit {n : Nat} (h : n < 16) : hexValue? (hexDigit n) = some n := by
  have hall : ∀ n, n < 16 → hexValue? (hexDigit n) = some n := by decide
  exact hall n h

/-- A character is read as it is written. -/
theorem readText_escaped (c : Char) (bound : Nat) (out : String) (rest : Rest) :
    readText (bound + 1) (some out) ((escaped c).toList ++ rest) =
      readText bound (some (out.push c)) rest := by
  have escape {letter : Char} {tail : Rest}
    (h : readEscape (letter :: tail) = some (some c, rest)) :
      readText (bound + 1) (some out) ('\\' :: letter :: tail) =
        readText bound (some (out.push c)) rest := by
    rw [readText, h]
    rfl
  by_cases hnamed : c = '"' ∨ c = '\\' ∨ c = '\n' ∨ c = '\r' ∨ c = '\t' ∨ c = '\x08' ∨ c = '\x0c'
  · rcases hnamed with rfl | rfl | rfl | rfl | rfl | rfl | rfl <;> exact escape rfl
  · simp only [not_or] at hnamed
    obtain ⟨hquote, hslash, hline, hreturn, htab, hback, hfeed⟩ := hnamed
    unfold escaped
    rw [if_neg hquote, if_neg hslash, if_neg hline, if_neg hreturn, if_neg htab,
      if_neg hback, if_neg hfeed]
    split
    · rename_i hcontrol
      have htext : ("\\u00" ++ String.singleton (hexDigit (c.toNat / 16)) ++
          String.singleton (hexDigit (c.toNat % 16))).toList ++ rest =
          '\\' :: 'u' :: '0' :: '0' :: hexDigit (c.toNat / 16) ::
            hexDigit (c.toNat % 16) :: rest := by
        rw [String.toList_append, String.toList_append, String.toList_singleton,
          String.toList_singleton]
        rfl
      rw [htext]
      refine escape ?_
      have hhigh := hexValue?_hexDigit (n := c.toNat / 16) (by omega)
      have hlow := hexValue?_hexDigit (n := c.toNat % 16) (by omega)
      have hzero : hexValue? '0' = some 0 := rfl
      have hvalue : ((0 * 16 + 0) * 16 + c.toNat / 16) * 16 + c.toNat % 16 = c.toNat := by omega
      have hunit :
          readUnit ('0' :: '0' :: hexDigit (c.toNat / 16) :: hexDigit (c.toNat % 16) :: rest) =
          some (c.toNat, rest) := by
        simp only [readUnit, hzero, hhigh, hlow, hvalue, Option.bind_eq_bind, Option.bind_some,
          Option.pure_def]
      have hlone : ¬(0xD800 ≤ c.toNat ∧ c.toNat < 0xDC00) ∧
        ¬(0xDC00 ≤ c.toNat ∧ c.toNat < 0xE000) := by omega
      change readEscapedUnit _ = _
      unfold readEscapedUnit
      rw [hunit, Option.bind_eq_bind, Option.bind_some]
      dsimp only
      rw [if_neg hlone.1, if_neg hlone.2, Char.ofNat_toNat]
      rfl
    · rename_i hplain
      rw [String.toList_singleton]
      change readText (bound + 1) (some out) (c :: rest) = _
      rw [readText, if_neg hplain]
      · rfl
      · exact hquote
      · exact hslash

theorem quoted_toList (s : String) :
    (quoted s).toList = '"' :: (s.toList.flatMap fun c => (escaped c).toList) ++ ['"'] := by
  have hfold (cs : List Char) (out : String) :
      (cs.foldl (fun out c => out ++ escaped c) out).toList = out.toList ++ cs.flatMap fun c =>
        (escaped c).toList := by
    induction cs generalizing out with
    | nil => simp
    | cons c cs ih =>
      rw [List.foldl_cons, ih, String.toList_append, List.flatMap_cons, List.append_assoc]
  unfold quoted
  rw [String.foldl_eq_foldl_toList, String.toList_append, hfold]
  rfl

theorem readQuoted_flatMap (s : String) (rest : Rest) :
    readQuoted ((s.toList.flatMap fun c => (escaped c).toList) ++ '"' :: rest) =
      some (some s, rest) := by
  have hread (cs : List Char) (bound : Nat) (hbound : cs.length < bound) (out : String) :
      readText bound (some out) ((cs.flatMap fun c => (escaped c).toList) ++ '"' :: rest) =
        some (some (out ++ String.ofList cs), rest) := by
    induction cs generalizing bound out with
    | nil =>
      obtain ⟨bound, rfl⟩ := Nat.exists_eq_succ_of_ne_zero (Nat.ne_of_gt hbound)
      simp [readText]
    | cons c cs ih =>
      obtain ⟨bound, rfl⟩ := Nat.exists_eq_succ_of_ne_zero (Nat.ne_of_gt (Nat.zero_lt_of_lt hbound))
      have hpushed : out.push c ++ String.ofList cs = out ++ String.ofList (c :: cs) :=
        String.toList_inj.mp (by simp)
      rw [List.flatMap_cons, List.append_assoc, readText_escaped,
        ih bound (Nat.lt_of_succ_lt_succ hbound), hpushed]
  have hpos (c : Char) : 0 < (escaped c).toList.length := by
    unfold escaped
    repeat' split
    all_goals simp
  have hlength (cs : List Char) : cs.length ≤ (cs.flatMap fun c => (escaped c).toList).length := by
    induction cs with
    | nil => exact Nat.le_refl 0
    | cons c cs ih =>
      rw [List.flatMap_cons, List.length_append, List.length_cons]
      have hc := hpos c
      omega
  unfold readQuoted
  rw [hread s.toList _ ?_ ""]
  · simp
  · have hle := hlength s.toList
    rw [List.length_append]
    omega

/-! ### The text of a document -/

/-- What the writer puts for the items after the first. -/
def itemsText (ds : List Document) : List Char := ds.flatMap fun d => ',' :: (write d).toList

def entryText (e : String × Document) : List Char :=
  (quoted e.1).toList ++ ':' :: (write e.2).toList

/-- What the writer puts for the entries after the first. -/
def entriesText (es : List (String × Document)) : List Char :=
  es.flatMap fun e => ',' :: entryText e

mutual

theorem writeTo_toList (out : String) :
    (d : Document) → (writeTo out d).toList = out.toList ++ (write d).toList
  | .null => by simp [write, writeTo]
  | .bool b => by simp [write, writeTo]
  | .int n => by simp [write, writeTo]
  | .other literal => by simp [write, writeTo]
  | .text s => by simp [write, writeTo]
  | .list [] => by simp [write, writeTo]
  | .table [] => by simp [write, writeTo]
  | .list (d :: rest) => by
    unfold write writeTo
    rw [String.toList_append, String.toList_append, writeItems_toList _ rest,
      writeItems_toList _ rest, writeTo_toList (out ++ "[") d, writeTo_toList ("" ++ "[") d]
    simp
  | .table ((k, d) :: rest) => by
    unfold write writeTo
    rw [String.toList_append, String.toList_append, writeEntries_toList _ rest,
      writeEntries_toList _ rest,
      writeTo_toList (out ++ openBrace ++ quoted k ++ ":") d,
        writeTo_toList ("" ++ openBrace ++ quoted k ++ ":") d]
    simp

theorem writeItems_toList (out : String) : (ds : List Document) →
    (writeItems out ds).toList = out.toList ++ itemsText ds
  | [] => by simp [writeItems, itemsText]
  | d :: rest => by
    rw [writeItems, writeItems_toList _ rest, writeTo_toList _ d]
    simp [itemsText]

theorem writeEntries_toList (out : String) : (es : List (String × Document)) →
    (writeEntries out es).toList = out.toList ++ entriesText es
  | [] => by simp [writeEntries, entriesText]
  | (k, d) :: rest => by
    rw [writeEntries, writeEntries_toList _ rest, writeTo_toList _ d]
    simp [entriesText, entryText]

end

theorem write_list_cons (d : Document) (ds : List Document) :
    (write (.list (d :: ds))).toList = '[' :: (write d).toList ++ itemsText ds ++ [']'] := by
  rw [write, writeTo, String.toList_append, writeItems_toList, writeTo_toList]
  rfl

theorem write_table_cons (e : String × Document) (es : List (String × Document)) :
    (write (.table (e :: es))).toList = '\x7b' :: entryText e ++ entriesText es ++ ['\x7d'] := by
  obtain ⟨k, d⟩ := e
  rw [write, writeTo, String.toList_append, writeEntries_toList, writeTo_toList]
  simp [entryText, openBrace, closeBrace]

/-! ### Reading it -/

/-- What the reader takes for values: lists and tables only so deep, and numbers that fit 64
bits. -/
inductive Readable : Nat → Document → Prop
  | null {depth : Nat} : Readable depth .null
  | bool {depth : Nat} (b : Bool) : Readable depth (.bool b)
  | int {depth : Nat} {n : Int} (hlo : -9223372036854775808 ≤ n) (hhi : n < 18446744073709551616) :
      Readable depth (.int n)
  | text {depth : Nat} (s : String) : Readable depth (.text s)
  | list {depth : Nat} {items : List Document} (h : ∀ d ∈ items, Readable depth d) : Readable
    (depth + 1) (.list items)
  | table {depth : Nat} {entries : List (String × Document)} (h : ∀ e ∈ entries,
    Readable depth e.2) :
      Readable (depth + 1) (.table entries)

/-- The reader finds the document in its text, whatever may follow. -/
def Reads (depth : Nat) (d : Document) : Prop :=
  ∀ (bound : Nat) (rest : Rest), 2 * (write d).toList.length ≤ bound → Ends rest →
    readValue bound depth ((write d).toList ++ rest) = some (d, rest)

/-- How a text begins that is neither that of a list nor of a table. -/
def Plain (c : Char) : Prop := c = '"' ∨ c = 'n' ∨ c = 't' ∨ c = 'f' ∨ c = '-' ∨ c.isDigit = true

theorem Plain.isBlank_eq_false {c : Char} (h : Plain c) : isBlank c = false := by
  rcases h with rfl | rfl | rfl | rfl | rfl | hdigit
  · rfl
  · rfl
  · rfl
  · rfl
  · rfl
  · refine Bool.eq_false_iff.mpr fun hblank => ?_
    have hcases : c = ' ' ∨ c = '\n' ∨ c = '\t' ∨ c = '\r' := by
      simpa [isBlank, or_assoc] using hblank
    rcases hcases with rfl | rfl | rfl | rfl <;> exact absurd hdigit (by decide)

theorem Plain.ne {c : Char} (h : Plain c) : c ≠ '[' ∧ c ≠ ']' ∧ c ≠ '\x7b' ∧ c ≠ '\x7d' := by
  refine ⟨?_, ?_, ?_, ?_⟩ <;> (rintro rfl; exact absurd h (by unfold Plain; decide))

theorem skipBlanks_cons {c : Char} (h : isBlank c = false) (cs : Rest) :
    skipBlanks (c :: cs) = c :: cs :=
  List.dropWhile_cons_of_neg (by simp [h])

theorem readValue_plain {c : Char} (h : Plain c) (cs : Rest) (bound depth : Nat) :
    readValue (bound + 1) depth (c :: cs) = readScalar (c :: cs) := by
  obtain ⟨hlist, -, htable, -⟩ := h.ne
  rw [readValue, skipBlanks_cons h.isBlank_eq_false]
  split
  · rename_i heq
    exact absurd (List.cons.inj heq).1 hlist
  · rename_i heq
    exact absurd (List.cons.inj heq).1 htable
  · rfl

/-- What is no list or table is read as a scalar. -/
theorem Reads.of_scalar {d : Document} {c : Char} {cs : Rest} (hhead : (write d).toList = c :: cs)
    (hc : Plain c)
    (hread : ∀ rest, Ends rest → readScalar ((write d).toList ++ rest) = some (d, rest))
    (depth : Nat) :
    Reads depth d := by
  intro bound rest hbound hrest
  rw [hhead, List.length_cons] at hbound
  obtain ⟨bound, rfl⟩ := Nat.exists_eq_succ_of_ne_zero (Nat.ne_of_gt (show 0 < bound by omega))
  have hscalar := hread rest hrest
  rw [hhead, List.cons_append] at hscalar ⊢
  rw [readValue_plain hc, hscalar]

theorem exists_plain_toString (n : Int) : ∃ c cs, (toString n).toList = c :: cs ∧ Plain c := by
  rw [Int.toString_eq_repr, Int.repr_eq_if]
  split
  · obtain ⟨c, cs, hcs⟩ := List.exists_cons_of_ne_nil (Nat.toDigits_ne_nil (n := n.toNat) (b := 10))
    have hmem : c ∈ Nat.toDigits 10 n.toNat := by
      rw [hcs]
      exact List.mem_cons_self
    have hdigit : c.isDigit = true := Nat.isDigit_of_mem_toDigits (by decide) (by decide) hmem
    rw [Nat.repr_eq_ofList_toDigits, String.toList_ofList, hcs]
    exact ⟨c, cs, rfl, .inr (.inr (.inr (.inr (.inr hdigit))))⟩
  · rw [String.toList_append]
    exact ⟨'-', _, rfl, .inr (.inr (.inr (.inr (.inl rfl))))⟩

theorem reads_int {n : Int} (hlo : -9223372036854775808 ≤ n) (hhi : n < 18446744073709551616)
    (depth : Nat) :
    Reads depth (.int n) := by
  obtain ⟨c, cs, hhead, hc⟩ := exists_plain_toString n
  have hwrite : write (.int n) = toString n := String.empty_append
  refine .of_scalar (by rw [hwrite, hhead]) hc (fun rest hrest => ?_) depth
  rw [hwrite]
  exact readScalar_int hlo hhi hrest

theorem reads_text (s : String) (depth : Nat) : Reads depth (.text s) := by
  have hwrite : (write (.text s)).toList =
      '"' :: ((s.toList.flatMap fun c => (escaped c).toList) ++ ['"']) := by
    rw [write, writeTo, String.empty_append, quoted_toList]
    rfl
  refine .of_scalar hwrite (.inl rfl) (fun rest _ => ?_) depth
  rw [hwrite, List.cons_append, List.append_assoc]
  change (readQuoted _).map _ = _
  rw [List.singleton_append, readQuoted_flatMap]
  rfl

theorem Readable.exists_begin {depth : Nat} {d : Document} (h : Readable depth d) :
    ∃ c cs, (write d).toList = c :: cs ∧ isBlank c = false ∧ c ≠ ']' := by
  cases h with
  | null => exact ⟨_, _, rfl, rfl, by decide⟩
  | bool b => cases b <;> exact ⟨_, _, rfl, rfl, by decide⟩
  | @int _ n _ _ =>
    obtain ⟨c, cs, hhead, hc⟩ := exists_plain_toString n
    have hwrite : write (.int n) = toString n := String.empty_append
    exact ⟨c, cs, by rw [hwrite, hhead], hc.isBlank_eq_false, hc.ne.2.1⟩
  | text s =>
    rw [write, writeTo, String.empty_append, quoted_toList]
    exact ⟨_, _, rfl, rfl, by decide⟩
  | @list _ items _ =>
    cases items with
    | nil => exact ⟨_, _, rfl, rfl, by decide⟩
    | cons d ds =>
      rw [write_list_cons]
      exact ⟨_, _, rfl, rfl, by decide⟩
  | @table _ entries _ =>
    cases entries with
    | nil => exact ⟨_, _, rfl, rfl, by decide⟩
    | cons e es =>
      rw [write_table_cons]
      exact ⟨_, _, rfl, rfl, by decide⟩

theorem itemsText_cons (d : Document) (ds : List Document) :
    itemsText (d :: ds) = ',' :: (write d).toList ++ itemsText ds := rfl

theorem itemsText_ends (ds : List Document) (rest : Rest) : Ends (itemsText ds ++ ']' :: rest) := by
  cases ds with
  | nil => exact .cons (.inr (.inl rfl))
  | cons d ds => exact .cons (.inl rfl)

theorem readItems_itemsText {depth : Nat} {d : Document} {ds : List Document}
    (h : ∀ x ∈ d :: ds, Reads depth x) (items : Array Document) {bound : Nat} {rest : Rest}
    (hbound : 2 * ((write d).toList.length + (itemsText ds).length) < bound) :
    readItems bound depth items ((write d).toList ++ (itemsText ds ++ ']' :: rest)) =
      some (.list (items.toList ++ d :: ds), rest) := by
  induction ds generalizing d items bound with
  | nil =>
    obtain ⟨bound, rfl⟩ := Nat.exists_eq_succ_of_ne_zero (Nat.ne_of_gt (Nat.zero_lt_of_lt hbound))
    have hd := h d List.mem_cons_self bound (']' :: rest) (by omega) (.cons (.inr (.inl rfl)))
    rw [show itemsText [] = [] from rfl, List.nil_append, readItems, hd, ← Array.toList_push]
    rfl
  | cons next ds ih =>
    obtain ⟨bound, rfl⟩ := Nat.exists_eq_succ_of_ne_zero (Nat.ne_of_gt (Nat.zero_lt_of_lt hbound))
    have hd := h d List.mem_cons_self bound _ (by omega) (itemsText_ends (next :: ds) rest)
    rw [itemsText_cons, List.length_append, List.length_cons] at hbound
    have hshorter : 2 * ((write next).toList.length + (itemsText ds).length) < bound := by omega
    have hrest := ih (fun x hx => h x (List.mem_cons_of_mem d hx)) (items.push d) hshorter
    rw [Array.toList_push, List.append_assoc, List.singleton_append] at hrest
    rw [readItems, hd, ← hrest, itemsText_cons, List.append_assoc]
    rfl

theorem entriesText_cons (e : String × Document) (es : List (String × Document)) :
    entriesText (e :: es) = ',' :: entryText e ++ entriesText es := rfl

theorem entriesText_ends (es : List (String × Document)) (rest : Rest) :
    Ends (entriesText es ++ '\x7d' :: rest) := by
  cases es with
  | nil => exact .cons (.inr (.inr rfl))
  | cons e es => exact .cons (.inl rfl)

theorem readName_entryText (e : String × Document) (rest : Rest) :
    readName (entryText e ++ rest) = some (some e.1, (write e.2).toList ++ rest) := by
  have htext : entryText e ++ rest =
      '"' :: ((e.1.toList.flatMap fun c => (escaped c).toList) ++
        '"' :: ':' :: ((write e.2).toList ++ rest)) := by
    unfold entryText
    rw [quoted_toList]
    simp
  rw [htext]
  unfold readName
  rw [skipBlanks_cons rfl]
  split
  · rename_i heq
    obtain ⟨-, rfl⟩ := List.cons.inj heq
    rw [readQuoted_flatMap]
    rfl
  · rename_i hquote
    exact absurd rfl (hquote _)

theorem readEntries_entriesText {depth : Nat} {e : String × Document}
    {es : List (String × Document)} (h : ∀ x ∈ e :: es, Reads depth x.2)
    (entries : Array (String × Document)) {bound : Nat} {rest : Rest}
    (hbound : 2 * ((entryText e).length + (entriesText es).length) < bound) :
    readEntries bound depth (some entries) (entryText e ++ (entriesText es ++ '\x7d' :: rest)) =
      some (.table (entries.toList ++ e :: es), rest) := by
  have hlength (e : String × Document) : (write e.2).toList.length ≤ (entryText e).length := by
    unfold entryText
    rw [List.length_append, List.length_cons]
    omega
  induction es generalizing e entries bound with
  | nil =>
    obtain ⟨bound, rfl⟩ := Nat.exists_eq_succ_of_ne_zero (Nat.ne_of_gt (Nat.zero_lt_of_lt hbound))
    have hle := hlength e
    have he := h e List.mem_cons_self bound ('\x7d' :: rest) (by omega) (.cons (.inr (.inr rfl)))
    rw [show entriesText [] = [] from rfl, List.nil_append, readEntries, readName_entryText]
    dsimp only
    rw [he, ← Array.toList_push]
    rfl
  | cons next es ih =>
    obtain ⟨bound, rfl⟩ := Nat.exists_eq_succ_of_ne_zero (Nat.ne_of_gt (Nat.zero_lt_of_lt hbound))
    have hle := hlength e
    have he := h e List.mem_cons_self bound _ (by omega) (entriesText_ends (next :: es) rest)
    rw [entriesText_cons, List.length_append, List.length_cons] at hbound
    have hshorter : 2 * ((entryText next).length + (entriesText es).length) < bound := by omega
    have hrest := ih (fun x hx => h x (List.mem_cons_of_mem e hx)) (entries.push e) hshorter
    rw [Array.toList_push, List.append_assoc, List.singleton_append] at hrest
    rw [readEntries, readName_entryText]
    dsimp only
    rw [he, ← hrest, entriesText_cons, List.append_assoc]
    rfl

theorem readValue_list {c : Char} (hblank : isBlank c = false) (hc : c ≠ ']') (cs : Rest)
    (bound depth : Nat) :
    readValue (bound + 1) (depth + 1) ('[' :: c :: cs) = readItems bound depth #[] (c :: cs) := by
  rw [readValue, skipBlanks_cons rfl]
  split
  · rename_i heq
    obtain ⟨-, rfl⟩ := List.cons.inj heq
    rw [skipBlanks_cons hblank]
    split
    · contradiction
    · rename_i heq
      exact absurd (List.cons.inj heq).1 hc
    · rename_i hdepth _
      obtain rfl := Nat.succ.inj hdepth
      rfl
  · rename_i heq
    exact absurd (List.cons.inj heq).1 (by decide)
  · rename_i hlist _
    exact absurd rfl (hlist _)

theorem readValue_table (cs : Rest) (bound depth : Nat) :
    readValue (bound + 1) (depth + 1) ('\x7b' :: '"' :: cs) =
        readEntries bound depth (some #[]) ('"' :: cs) :=
  rfl

/-- Whatever follows it, a document that is readable is read as it was written. -/
theorem Readable.reads {depth : Nat} {d : Document} (h : Readable depth d) : Reads depth d := by
  induction h with
  | null => exact .of_scalar rfl (.inr (.inl rfl)) (fun _ _ => rfl) _
  | bool b =>
    cases b with
    | true => exact .of_scalar rfl (.inr (.inr (.inl rfl))) (fun _ _ => rfl) _
    | false => exact .of_scalar rfl (.inr (.inr (.inr (.inl rfl)))) (fun _ _ => rfl) _
  | int hlo hhi => exact reads_int hlo hhi _
  | text s => exact reads_text s _
  | @list depth items h ih =>
    intro bound rest hbound hrest
    cases items with
    | nil =>
      obtain ⟨bound, rfl⟩ :=
        Nat.exists_eq_succ_of_ne_zero (Nat.ne_of_gt (Nat.lt_of_lt_of_le (by decide) hbound))
      rfl
    | cons d ds =>
      rw [write_list_cons] at hbound ⊢
      simp only [List.length_append, List.length_cons, List.length_nil] at hbound
      obtain ⟨bound, rfl⟩ := Nat.exists_eq_succ_of_ne_zero (Nat.ne_of_gt (show 0 < bound by omega))
      have hlength : 2 * ((write d).toList.length + (itemsText ds).length) < bound := by omega
      have hitems : readItems bound depth
          #[] ((write d).toList ++ (itemsText ds ++ ']' :: rest)) = some _ :=
        readItems_itemsText ih #[] hlength
      obtain ⟨c, cs, hbegin, hblank, hc⟩ := (h d List.mem_cons_self).exists_begin
      have htext : '[' :: (write d).toList ++ itemsText ds ++ [']'] ++ rest =
          '[' :: c :: (cs ++ (itemsText ds ++ ']' :: rest)) := by
        rw [hbegin]
        simp
      rw [htext, readValue_list hblank hc, ← List.cons_append, ← hbegin, hitems]
      rfl
  | @table depth entries h ih =>
    intro bound rest hbound hrest
    cases entries with
    | nil =>
      obtain ⟨bound, rfl⟩ :=
        Nat.exists_eq_succ_of_ne_zero (Nat.ne_of_gt (Nat.lt_of_lt_of_le (by decide) hbound))
      rfl
    | cons e es =>
      rw [write_table_cons] at hbound ⊢
      simp only [List.length_append, List.length_cons, List.length_nil] at hbound
      obtain ⟨bound, rfl⟩ := Nat.exists_eq_succ_of_ne_zero (Nat.ne_of_gt (show 0 < bound by omega))
      have hlength : 2 * ((entryText e).length + (entriesText es).length) < bound := by omega
      have hentries : readEntries bound
          depth (some #[]) (entryText e ++ (entriesText es ++ '\x7d' :: rest)) = some _ :=
        readEntries_entriesText ih #[] hlength
      obtain ⟨cs, hbegin⟩ : ∃ cs, entryText e = '"' :: cs := by
        unfold entryText
        rw [quoted_toList]
        exact ⟨_, rfl⟩
      have htext : '\x7b' :: entryText e ++ entriesText es ++ ['\x7d'] ++ rest =
          '\x7b' :: '"' :: (cs ++ (entriesText es ++ '\x7d' :: rest)) := by
        rw [hbegin]
        simp
      rw [htext, readValue_table, ← List.cons_append, ← hbegin, hentries]
      rfl

/-- The reader gives back what the writer has written. -/
theorem parse_write {d : Document} (h : Readable maxDepth d) : parse (write d) = some d := by
  have hread := h.reads (2 * (write d).toList.length + 2) [] (by omega) nofun
  rw [List.append_nil] at hread
  unfold parse
  dsimp only
  rw [hread]
  rfl

end ActiveBattle.Document.Json
