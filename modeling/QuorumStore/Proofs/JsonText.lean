/-
JSON values are read back as they were written.

* `Json.spell`: the characters of a written value, part by part;
* `Json.Plain`: the values that messages are made of: their texts denote
  something and their numbers are natural;
* `Json.reads_of_plain`: such a value is read off the front of any text that
  does not go on like a numeral;
* `Json.parse?_render`: reading undoes writing;
* `Json.printable_spell`: a written value holds no control character, so it
  stands on one line.
-/
import Mathlib.Tactic.Lemma
import Mathlib.Tactic.SplitIfs
import QuorumStore.Json.Reader
import QuorumStore.Json.Writer
import QuorumStore.Text.Blank

namespace QuorumStore

namespace Json

/-! ### Spelling -/

/-- A character as it stands between quotation marks. -/
def escape (c : Char) : List Char :=
  (escapeOnto "" c).toList

/-- A text between quotation marks. -/
def quoted (s : String) : List Char :=
  '"' :: (s.toList.flatMap escape ++ ['"'])

/-- A literal as it is written. -/
def spellLiteral : Literal → List Char
  | some s => quoted s
  | none => ['"', '\\', 'u', 'd', '8', '0', '0', '"']

mutual

/-- The characters of a written value. -/
def spell : Json → List Char
  | null => ['n', 'u', 'l', 'l']
  | bool true => ['t', 'r', 'u', 'e']
  | bool false => ['f', 'a', 'l', 's', 'e']
  | number n => n.text.toList
  | string s => spellLiteral s
  | array [] => ['[', ']']
  | array (v :: rest) => '[' :: (spell v ++ spellItems rest ++ [']'])
  | object [] => ['\x7b', '\x7d']
  | object ((k, v) :: rest) =>
    '\x7b' :: (spellLiteral k ++ ':' :: spell v ++ spellMembers rest ++ ['\x7d'])

/-- The characters of further items. -/
def spellItems : List Json → List Char
  | [] => []
  | v :: rest => ',' :: (spell v ++ spellItems rest)

/-- The characters of further members. -/
def spellMembers : List (Literal × Json) → List Char
  | [] => []
  | (k, v) :: rest => ',' :: (spellLiteral k ++ ':' :: spell v ++ spellMembers rest)

end

lemma toList_escapeOnto (out : String) (c : Char) :
    (escapeOnto out c).toList = out.toList ++ escape c := by
  unfold escape escapeOnto
  split_ifs <;> simp

lemma toList_foldl_escapeOnto (out : String) (cs : List Char) :
    (cs.foldl escapeOnto out).toList = out.toList ++ cs.flatMap escape := by
  induction cs generalizing out with
  | nil => simp
  | cons c cs ih => simp [ih, toList_escapeOnto]

lemma toList_literalOnto (out : String) (s : Literal) :
    (literalOnto out s).toList = out.toList ++ spellLiteral s := by
  cases s with
  | none => simp [literalOnto, spellLiteral]
  | some s => simp [literalOnto, quoteOnto, spellLiteral, quoted, toList_foldl_escapeOnto]

mutual

lemma toList_writeOnto (out : String) : ∀ v : Json, (writeOnto out v).toList = out.toList ++ spell v
  | null => by simp [writeOnto, spell]
  | bool true => by simp [writeOnto, spell]
  | bool false => by simp [writeOnto, spell]
  | number n => by simp [writeOnto, spell]
  | string s => by simp [writeOnto, spell, toList_literalOnto]
  | array [] => by simp [writeOnto, spell]
  | array (v :: rest) => by
    simp [writeOnto, spell, toList_writeItemsOnto _ rest, toList_writeOnto _ v]
  | object [] => by simp [writeOnto, spell]
  | object ((k, v) :: rest) => by
    simp [writeOnto, spell, toList_writeMembersOnto _ rest, toList_writeOnto _ v,
      toList_literalOnto]

lemma toList_writeItemsOnto (out : String) :
    ∀ items : List Json, (writeItemsOnto out items).toList = out.toList ++ spellItems items
  | [] => by simp [writeItemsOnto, spellItems]
  | v :: rest => by
    simp [writeItemsOnto, spellItems, toList_writeItemsOnto _ rest, toList_writeOnto _ v]

lemma toList_writeMembersOnto (out : String) : ∀ members : List (Literal × Json),
    (writeMembersOnto out members).toList = out.toList ++ spellMembers members
  | [] => by simp [writeMembersOnto, spellMembers]
  | (k, v) :: rest => by
    simp [writeMembersOnto, spellMembers, toList_writeMembersOnto _ rest, toList_writeOnto _ v,
      toList_literalOnto]

end

/-- The text of a value holds its characters. -/
lemma toList_render (v : Json) : v.render.toList = spell v := by
  rw [render, toList_writeOnto]
  rfl

/-- A value is written behind a text as it is written alone. -/
lemma writeOnto_eq (out : String) (v : Json) : writeOnto out v = out ++ v.render := by
  rw [String.ext_iff, toList_writeOnto, String.toList_append, toList_render]

lemma literalOnto_eq (out : String) (s : Literal) :
    literalOnto out s = out ++ (string s).render := by
  rw [String.ext_iff, toList_literalOnto, String.toList_append, toList_render, spell]

/-! ### Reading texts -/

/-- Two hexadecimal digits are enough for a control character. -/
lemma hexUnit?_of_lt {n : Nat} (hn : n < 32) :
    hexUnit? '0' '0' (hexDigit (n / 16)) (hexDigit (n % 16)) = some n := by
  have all : ∀ n < 32, hexUnit? '0' '0' (hexDigit (n / 16)) (hexDigit (n % 16)) = some n := by
    decide
  exact all n hn

/-- An escaped character is read as the character that it stands for. -/
lemma readText_escape (out : String) (c : Char) (cs : List Char) :
    readText out true none (escape c ++ cs) = readText (out.push c) true none cs := by
  unfold escape escapeOnto
  have hc : Char.ofNat c.toNat = c := Char.ofNat_toNat c
  split_ifs with quote backslash newline ret tab back feed control
  · simp [readText, escaped?, quote]
  · simp [readText, escaped?, backslash]
  · simp [readText, escaped?, newline]
  · simp [readText, escaped?, ret]
  · simp [readText, escaped?, tab]
  · rw [back] at hc
    subst hc
    simp [readText, escaped?]
  · rw [feed] at hc
    subst hc
    simp [readText, escaped?]
  · have low : ¬ (0xDC00 ≤ c.toNat ∧ c.toNat < 0xE000) := by omega
    have high : ¬ (0xD800 ≤ c.toNat ∧ c.toNat < 0xDC00) := by omega
    simp [readText, hexUnit?_of_lt control, hc, low, high]
  · simp [readText, backslash, control]

/-- A text between quotation marks is read off the front. -/
lemma readText_quoted (s : String) (cs : List Char) :
    readText "" true none (s.toList.flatMap escape ++ '"' :: cs) = some (some s, cs) := by
  have each : ∀ (out : String) (us : List Char),
      readText out true none (us.flatMap escape ++ '"' :: cs) =
        some (some (out ++ String.ofList us), cs) := by
    intro out us
    induction us generalizing out with
    | nil => simp [readText]
    | cons u us ih =>
      rw [List.flatMap_cons, List.append_assoc, readText_escape, ih]
      simp [String.ext_iff]
  simpa using each "" s.toList

/-! ### Reading numerals -/

/-- Whether a text does not go on like a numeral. -/
def Ends (cs : List Char) : Prop :=
  ∀ c ∈ cs.head?, c.isDigit = false ∧ c ≠ '.' ∧ c ≠ 'e' ∧ c ≠ 'E'

lemma ends_nil : Ends [] := by simp [Ends]

lemma toList_text_ofNat (n : Nat) : (Numeral.ofNat n).text.toList = Nat.toDigits 10 n := by
  simp [Numeral.text, Numeral.ofNat]

/-- A numeral begins with a digit. -/
lemma exists_toDigits_eq_cons (n : Nat) :
    ∃ d ds, Nat.toDigits 10 n = d :: ds ∧ d.isDigit = true := by
  obtain ⟨d, ds, hd⟩ := List.exists_cons_of_ne_nil (Nat.toDigits_ne_nil (n := n) (b := 10))
  refine ⟨d, ds, hd, Nat.isDigit_of_mem_toDigits (n := n) (by decide) (Nat.le_refl 10) ?_⟩
  rw [hd]
  exact List.mem_cons_self

lemma ne_of_isDigit {c d : Char} (hd : d.isDigit = true) (hc : c.isDigit = false) : d ≠ c := by
  rintro rfl
  rw [hd] at hc
  cases hc

lemma toNat_of_isDigit {d : Char} (hd : d.isDigit = true) : 48 ≤ d.toNat ∧ d.toNat ≤ 57 := by
  simp only [Char.isDigit, Bool.and_eq_true, decide_eq_true_eq] at hd
  exact hd

lemma isBlank_of_isDigit {d : Char} (hd : d.isDigit = true) : isBlank d = false := by
  obtain ⟨low, high⟩ := toNat_of_isDigit hd
  simp only [isBlank, Bool.or_eq_false_iff, Bool.and_eq_false_iff, decide_eq_false_iff_not]
  omega

/-- What may stand between the parts of a value is blank. -/
lemma isSpace_of_isBlank {c : Char} (hc : isBlank c = false) : isSpace c = false := by
  rw [Bool.eq_false_iff] at hc ⊢
  intro space
  simp only [isSpace, Bool.or_eq_true, decide_eq_true_eq] at space
  rcases space with ((rfl | rfl) | rfl) | rfl <;> exact hc rfl

/-- Only the numeral of zero begins with a zero. -/
lemma eq_zero_of_head?_toDigits {n : Nat} (h : (Nat.toDigits 10 n).head? = some '0') : n = 0 := by
  induction n using Nat.strongRecOn with
  | ind n ih =>
    rw [Nat.toDigits_eq_if (by decide)] at h
    split_ifs at h with hn
    · have all : ∀ n < 10, [Nat.digitChar n].head? = some '0' → n = 0 := by decide
      exact all n hn h
    · obtain ⟨d, ds, hd, -⟩ := exists_toDigits_eq_cons (n / 10)
      rw [hd] at h
      have hq := ih (n / 10) (by omega) (by rw [hd]; exact h)
      omega

/-- A numeral has no zero in front of another digit. -/
lemma toDigits_ne_zero_cons (n : Nat) (c : Char) (cs : List Char) :
    Nat.toDigits 10 n ≠ '0' :: c :: cs := by
  intro h
  have hn : n = 0 := eq_zero_of_head?_toDigits (by rw [h]; rfl)
  rw [hn, Nat.toDigits_zero] at h
  cases h

/-- Digits are taken off the front as far as they go. -/
lemma digits?_append {ds cs : List Char} (hds : ∀ c ∈ ds, c.isDigit = true) (hne : ds ≠ [])
    (hcs : Ends cs) : digits? (ds ++ cs) = some (ds, cs) := by
  have stop : cs.takeWhile Char.isDigit = [] ∧ cs.dropWhile Char.isDigit = cs := by
    cases cs with
    | nil => exact ⟨rfl, rfl⟩
    | cons c cs =>
      have hc : c.isDigit = false := (hcs c rfl).1
      simp [hc]
  rw [digits?, List.takeWhile_append_of_pos hds, List.dropWhile_append_of_pos hds, stop.1, stop.2,
    List.append_nil]
  cases ds with
  | nil => exact absurd rfl hne
  | cons d ds => rfl

/-- The digits of a numeral are read off the front. -/
lemma wholeDigits?_toDigits (n : Nat) {cs : List Char} (hcs : Ends cs) :
    wholeDigits? (Nat.toDigits 10 n ++ cs) = some (Nat.toDigits 10 n, cs) := by
  have digits : digits? (Nat.toDigits 10 n ++ cs) = some (Nat.toDigits 10 n, cs) :=
    digits?_append (fun c hc => Nat.isDigit_of_mem_toDigits (by decide) (by decide) hc)
      Nat.toDigits_ne_nil hcs
  rw [wholeDigits?, digits]
  split
  · rename_i c cs' rest heq
    simp only [Option.some.injEq, Prod.mk.injEq] at heq
    exact absurd heq.1 (toDigits_ne_zero_cons n _ _)
  · rfl

/-- A numeral is read off the front. -/
lemma readNumeral_toDigits (n : Nat) {cs : List Char} (hcs : Ends cs) :
    readNumeral (Nat.toDigits 10 n ++ cs) = some (nat n, cs) := by
  have fraction : fraction? cs = some (none, cs) := by
    cases cs with
    | nil => rfl
    | cons c cs =>
      have hc := (hcs c rfl).2.1
      simp [fraction?, hc]
  have exponent : exponent? cs = some (none, cs) := by
    cases cs with
    | nil => rfl
    | cons c cs =>
      have hc := (hcs c rfl).2.2
      simp [exponent?, hc]
  have unsigned : readUnsigned false (Nat.toDigits 10 n ++ cs) = some (nat n, cs) := by
    simp [readUnsigned, wholeDigits?_toDigits n hcs, fraction, exponent, nat, Numeral.ofNat]
  obtain ⟨d, ds, hd, digit⟩ := exists_toDigits_eq_cons n
  rw [← unsigned, hd]
  simp [readNumeral, ne_of_isDigit digit (c := '-') rfl]

/-! ### Reading values -/

/-- A value of the kind that messages are made of: its texts denote something
and its numbers are natural. -/
inductive Plain : Json → Prop where
  | bool (b : Bool) : Plain (.bool b)
  | nat (n : Nat) : Plain (.nat n)
  | text (s : String) : Plain (.text s)
  | array (items : List Json) (plain : ∀ v ∈ items, Plain v) : Plain (.array items)
  | obj (members : List (String × Json)) (plain : ∀ p ∈ members, Plain p.2) : Plain (.obj members)

/-- A plain value begins neither with a blank nor with a closing bracket. -/
lemma Plain.exists_spell_eq_cons {v : Json} (hv : Plain v) :
    ∃ c cs, spell v = c :: cs ∧ isBlank c = false ∧ c ≠ ']' := by
  cases hv with
  | bool b => cases b <;> exact ⟨_, _, rfl, by decide, by decide⟩
  | nat n =>
    obtain ⟨d, ds, hd, digit⟩ := exists_toDigits_eq_cons n
    exact ⟨d, ds, by rw [← hd, ← toList_text_ofNat]; rfl, isBlank_of_isDigit digit,
      ne_of_isDigit digit rfl⟩
  | text s => exact ⟨_, _, rfl, by decide, by decide⟩
  | array items plain => cases items <;> exact ⟨_, _, rfl, by decide, by decide⟩
  | obj members plain => cases members <;> exact ⟨_, _, rfl, by decide, by decide⟩

/-- Whether a value is read off the front of every text that begins with it and
does not go on like a numeral. -/
def Reads (v : Json) : Prop :=
  ∀ fuel cs, 2 * (spell v).length ≤ fuel → Ends cs → readValue fuel (spell v ++ cs) = some (v, cs)

lemma skipSpace_cons {c : Char} (hc : isSpace c = false) (cs : List Char) :
    skipSpace (c :: cs) = c :: cs := by
  simp [skipSpace, hc]

lemma ends_cons {c : Char} (hc : c = ',' ∨ c = ']' ∨ c = '\x7d') (cs : List Char) :
    Ends (c :: cs) := by
  intro d hd
  obtain rfl : c = d := by simpa using hd
  rcases hc with rfl | rfl | rfl <;> decide

/-- Further items do not go on like a numeral. -/
lemma ends_spellItems (items : List Json) (cs : List Char) :
    Ends (spellItems items ++ ']' :: cs) := by
  cases items with
  | nil => exact ends_cons (by simp) cs
  | cons v rest => exact ends_cons (by simp) _

/-- Further members do not go on like a numeral. -/
lemma ends_spellMembers (members : List (Literal × Json)) (cs : List Char) :
    Ends (spellMembers members ++ '\x7d' :: cs) := by
  cases members with
  | nil => exact ends_cons (by simp) cs
  | cons p rest => exact ends_cons (by simp) _

/-- Items are read up to the closing bracket. -/
lemma readItems_spell {v : Json} {items : List Json} (hv : Reads v) (hitems : ∀ w ∈ items, Reads w)
    (seen : List Json) (cs : List Char) (fuel : Nat)
    (hfuel : 2 * (spell v ++ spellItems items).length + 1 ≤ fuel) :
    readItems fuel seen (spell v ++ (spellItems items ++ ']' :: cs)) =
      some (array (seen.reverse ++ v :: items), cs) := by
  induction items generalizing v seen fuel with
  | nil =>
    obtain ⟨fuel, rfl⟩ : ∃ f, fuel = f + 1 := ⟨fuel - 1, by omega⟩
    simp only [spellItems, List.append_nil] at hfuel
    have first := hv fuel (']' :: cs) (by omega) (ends_cons (by simp) cs)
    simp [readItems, spellItems, first, skipSpace_cons (show isSpace ']' = false from rfl)]
  | cons w rest ih =>
    obtain ⟨fuel, rfl⟩ : ∃ f, fuel = f + 1 := ⟨fuel - 1, by omega⟩
    simp only [spellItems, List.length_append, List.length_cons] at hfuel
    have first := hv fuel (spellItems (w :: rest) ++ ']' :: cs) (by omega) (ends_spellItems _ cs)
    have others := ih (hitems w List.mem_cons_self)
      (fun u hu => hitems u (List.mem_cons_of_mem w hu)) (v :: seen) fuel
      (by rw [List.length_append]; omega)
    simp only [readItems, first]
    simp [spellItems, skipSpace_cons (show isSpace ',' = false from rfl), others]

/-- The members of an object as they are kept. -/
def named (members : List (String × Json)) : List (Literal × Json) :=
  members.map fun p => (some p.1, p.2)

/-- Members are read up to the closing brace. -/
lemma readMembers_spell {k : String} {v : Json} {members : List (String × Json)} (hv : Reads v)
    (hmembers : ∀ p ∈ members, Reads p.2) (seen : List (Literal × Json)) (cs : List Char)
    (fuel : Nat)
    (hfuel : 2 * (quoted k ++ ':' :: spell v ++ spellMembers (named members)).length + 1 ≤ fuel) :
    readMembers fuel seen
        (quoted k ++ ':' :: (spell v ++ (spellMembers (named members) ++ '\x7d' :: cs))) =
      some (object (seen.reverse ++ (some k, v) :: named members), cs) := by
  induction members generalizing k v seen fuel with
  | nil =>
    obtain ⟨fuel, rfl⟩ : ∃ f, fuel = f + 1 := ⟨fuel - 1, by omega⟩
    simp only [named, List.map_nil, spellMembers, List.append_nil, List.length_append,
      List.length_cons] at hfuel
    have first := hv fuel ('\x7d' :: cs) (by omega) (ends_cons (by simp) cs)
    simp [readMembers, quoted, named, spellMembers, readText_quoted, first,
      skipSpace_cons (show isSpace '"' = false from rfl),
      skipSpace_cons (show isSpace ':' = false from rfl),
      skipSpace_cons (show isSpace '\x7d' = false from rfl)]
  | cons p rest ih =>
    obtain ⟨fuel, rfl⟩ : ∃ f, fuel = f + 1 := ⟨fuel - 1, by omega⟩
    obtain ⟨j, w⟩ := p
    simp only [named, List.map_cons, spellMembers, spellLiteral, List.length_append,
      List.length_cons] at hfuel
    have first := hv fuel (spellMembers (named ((j, w) :: rest)) ++ '\x7d' :: cs) (by omega)
      (ends_spellMembers _ cs)
    have others := ih (k := j) (v := w) (hmembers (j, w) List.mem_cons_self)
      (fun q hq => hmembers q (List.mem_cons_of_mem (j, w) hq)) ((some k, v) :: seen)
      fuel (by simp only [named, List.length_append, List.length_cons]; omega)
    have step : readMembers (fuel + 1) seen (quoted k ++ ':' :: (spell v ++
        (spellMembers (named ((j, w) :: rest)) ++ '\x7d' :: cs))) =
        readMembers fuel ((some k, v) :: seen) (quoted j ++ ':' :: (spell w ++
          (spellMembers (named rest) ++ '\x7d' :: cs))) := by
      simp only [readMembers, quoted, List.cons_append, List.append_assoc, List.nil_append,
        skipSpace_cons (show isSpace '"' = false from rfl), readText_quoted,
        skipSpace_cons (show isSpace ':' = false from rfl), first]
      simp [named, spellMembers, spellLiteral, quoted,
        skipSpace_cons (show isSpace ',' = false from rfl)]
    rw [step, others]
    simp [named]

lemma Plain.reads_of_succ {v : Json} (hv : Plain v)
    (h : ∀ fuel cs, 2 * (spell v).length ≤ fuel + 1 → Ends cs →
      readValue (fuel + 1) (spell v ++ cs) = some (v, cs)) : Reads v := by
  intro fuel cs hfuel hcs
  obtain ⟨c, us, hc, -⟩ := hv.exists_spell_eq_cons
  have positive : 0 < fuel := by
    rw [hc, List.length_cons] at hfuel
    omega
  obtain ⟨fuel, rfl⟩ : ∃ f, fuel = f + 1 := ⟨fuel - 1, by omega⟩
  exact h fuel cs hfuel hcs

/-- A plain value is read off the front of any text that does not go on like a
numeral. -/
lemma reads_of_plain {v : Json} (hv : Plain v) : Reads v := by
  induction hv with
  | bool b =>
    refine (Plain.bool b).reads_of_succ fun fuel cs _ _ => ?_
    cases b <;> simp [spell, readValue, skipSpace, isSpace]
  | nat n =>
    refine (Plain.nat n).reads_of_succ fun fuel cs _ hcs => ?_
    have spelled : spell (nat n) = Nat.toDigits 10 n := toList_text_ofNat n
    obtain ⟨d, ds, hd, digit⟩ := exists_toDigits_eq_cons n
    have numeral := readNumeral_toDigits n hcs
    rw [spelled, hd, List.cons_append]
    rw [hd, List.cons_append] at numeral
    simp [readValue, skipSpace_cons (isSpace_of_isBlank (isBlank_of_isDigit digit)), numeral,
      ne_of_isDigit digit (c := '"') rfl, ne_of_isDigit digit (c := '[') rfl,
      ne_of_isDigit digit (c := '\x7b') rfl, ne_of_isDigit digit (c := 'n') rfl,
      ne_of_isDigit digit (c := 't') rfl, ne_of_isDigit digit (c := 'f') rfl]
  | text s =>
    refine (Plain.text s).reads_of_succ fun fuel cs _ _ => ?_
    simp [readValue, text, spell, spellLiteral, quoted, readText_quoted,
      skipSpace_cons (show isSpace '"' = false from rfl)]
  | array items plain ih =>
    refine (Plain.array items plain).reads_of_succ fun fuel cs hfuel _ => ?_
    cases items with
    | nil =>
      simp [spell, readValue, skipSpace_cons (show isSpace '[' = false from rfl),
        skipSpace_cons (show isSpace ']' = false from rfl)]
    | cons v rest =>
      obtain ⟨c, us, hc, blank, bracket⟩ := (plain v List.mem_cons_self).exists_spell_eq_cons
      have items := readItems_spell (ih v List.mem_cons_self)
        (fun w hw => ih w (List.mem_cons_of_mem v hw)) [] cs fuel (by
          simp only [spell, List.length_cons, List.length_append] at hfuel
          rw [List.length_append]
          omega)
      rw [hc] at items
      simp only [List.cons_append] at items
      simp [spell, readValue, skipSpace_cons (show isSpace '[' = false from rfl), hc,
        skipSpace_cons (isSpace_of_isBlank blank), bracket, items]
  | obj members plain ih =>
    refine (Plain.obj members plain).reads_of_succ fun fuel cs hfuel _ => ?_
    cases members with
    | nil =>
      simp [spell, obj, readValue, skipSpace_cons (show isSpace '\x7b' = false from rfl),
        skipSpace_cons (show isSpace '\x7d' = false from rfl)]
    | cons p rest =>
      obtain ⟨k, v⟩ := p
      have members := readMembers_spell (k := k) (ih (k, v) List.mem_cons_self)
        (fun q hq => ih q (List.mem_cons_of_mem (k, v) hq)) [] cs fuel (by
          simp [spell, obj, spellLiteral] at hfuel
          simp [named]
          omega)
      simp only [quoted, List.cons_append, List.append_assoc, List.nil_append, named,
        List.reverse_nil] at members
      simp [spell, obj, spellLiteral, quoted, readValue, members,
        skipSpace_cons (show isSpace '\x7b' = false from rfl),
        skipSpace_cons (show isSpace '"' = false from rfl)]

/-- **Reading undoes writing**, for the values that messages are made of. -/
theorem parse?_render {v : Json} (hv : Plain v) : parse? v.render = some v := by
  have whole := reads_of_plain hv (2 * (spell v).length + 2) [] (by omega) ends_nil
  rw [List.append_nil] at whole
  simp [parse?, toList_render, whole, skipSpace]

/-! ### Lines

A written value holds no control character, so it stands on one line. -/

/-- Whether no control character stands in a text. -/
def Printable (cs : List Char) : Prop :=
  ∀ c ∈ cs, 32 ≤ c.toNat

lemma printable_nil : Printable [] := by simp [Printable]

lemma printable_cons {c : Char} {cs : List Char} (hc : 32 ≤ c.toNat) (hcs : Printable cs) :
    Printable (c :: cs) := by
  simp_all [Printable]

lemma Printable.append {cs us : List Char} (hcs : Printable cs) (hus : Printable us) :
    Printable (cs ++ us) := by
  intro c hc
  exact (List.mem_append.mp hc).elim (hcs c) (hus c)

lemma printable_escape (c : Char) : Printable (escape c) := by
  have hex : ∀ n < 16, 32 ≤ (hexDigit n).toNat := by decide
  unfold escape escapeOnto
  split_ifs with quote backslash newline ret tab back feed control
  · simp [Printable]
  · simp [Printable]
  · simp [Printable]
  · simp [Printable]
  · simp [Printable]
  · simp [Printable]
  · simp [Printable]
  · have high := hex (c.toNat / 16) (by omega)
    have low := hex (c.toNat % 16) (by omega)
    simp [Printable, high, low]
  · simpa [Printable] using control

lemma printable_quoted (s : String) : Printable (quoted s) := by
  refine printable_cons (by decide) (Printable.append ?_ (printable_cons (by decide) printable_nil))
  intro u hu
  obtain ⟨c, -, hc⟩ := List.mem_flatMap.mp hu
  exact printable_escape c u hc

lemma printable_spellItems {items : List Json} (h : ∀ v ∈ items, Printable (spell v)) :
    Printable (spellItems items) := by
  induction items with
  | nil => exact printable_nil
  | cons v rest ih =>
    exact printable_cons (by decide) ((h v List.mem_cons_self).append
      (ih fun w hw => h w (List.mem_cons_of_mem v hw)))

lemma printable_spellMembers {members : List (String × Json)}
    (h : ∀ p ∈ members, Printable (spell p.2)) : Printable (spellMembers (named members)) := by
  induction members with
  | nil => exact printable_nil
  | cons p rest ih =>
    exact printable_cons (by decide) (((printable_quoted p.1).append (printable_cons (by decide)
      (h p List.mem_cons_self))).append (ih fun q hq => h q (List.mem_cons_of_mem p hq)))

/-- A written value holds no control character. -/
theorem printable_spell {v : Json} (hv : Plain v) : Printable (spell v) := by
  induction hv with
  | bool b => cases b <;> simp [spell, Printable]
  | nat n =>
    have spelled : spell (nat n) = Nat.toDigits 10 n := toList_text_ofNat n
    rw [spelled]
    intro c hc
    have digit := Nat.isDigit_of_mem_toDigits (by decide) (by decide) hc
    exact Nat.le_trans (by decide) (toNat_of_isDigit digit).1
  | text s => exact printable_quoted s
  | array items plain ih =>
    cases items with
    | nil => simp [spell, Printable]
    | cons v rest =>
      exact printable_cons (by decide) (((ih v List.mem_cons_self).append
        (printable_spellItems fun w hw => ih w (List.mem_cons_of_mem v hw))).append
        (printable_cons (by decide) printable_nil))
  | obj members plain ih =>
    cases members with
    | nil => simp [spell, obj, Printable]
    | cons p rest =>
      exact printable_cons (by decide) ((((printable_quoted p.1).append (printable_cons (by decide)
        (ih p List.mem_cons_self))).append (printable_spellMembers fun q hq =>
          ih q (List.mem_cons_of_mem p hq))).append (printable_cons (by decide) printable_nil))

end Json

end QuorumStore
