import Mathlib.Data.List.Forall2
import Mathlib.Data.List.Infix

/-!
# Go's string functions

The functions of Go's `strings`, `strconv`, `path/filepath` and `regexp` packages that the model
uses, on the characters of a string. The strings of the model are ASCII, so characters are bytes.

A regular expression is a sequence of pieces: a literal character or `.`, taken once, with `*` or
with `+`. `Piece.rests` lists what can remain of a text after a piece, so a match is a chain of
remainders (`matchString`).
-/

set_option autoImplicit false

namespace Byoh.Foundation.Text

/-- `strings.Split(s, sep)[0]` for a one-character separator. -/
def splitFirst (s : String) (sep : Char) : String := String.ofList (s.toList.takeWhile (· ≠ sep))

/-- Drop `skip` characters, then copy the text without the occurrences of `pat`. -/
def deleteAllAux (pat : List Char) : Nat → List Char → List Char
  | _, [] => []
  | skip + 1, _ :: cs => deleteAllAux pat skip cs
  | 0, c :: cs =>
      if pat.isPrefixOf (c :: cs) then deleteAllAux pat (pat.length - 1) cs
      else c :: deleteAllAux pat 0 cs

/-- `strings.ReplaceAll(s, pat, "")` for a non-empty `pat`. -/
def deleteAll (s pat : String) : String := String.ofList (deleteAllAux pat.toList 0 s.toList)

/-- `strings.ReplaceAll(s, a, b)` for one-character strings `a` and `b`. -/
def replaceChar (s : String) (a b : Char) : String :=
  String.ofList (s.toList.map fun c => if c = a then b else c)

/-- `strings.TrimSuffix`. -/
def trimSuffix (s suffix : String) : String :=
  if suffix.toList.isSuffixOf s.toList then
    String.ofList (s.toList.take (s.toList.length - suffix.toList.length))
  else s

/-- `strings.Contains`. -/
def contains (s sub : String) : Bool := s.toList.tails.any fun t => sub.toList.isPrefixOf t

/-- What follows the first occurrence of `pat` in a text. -/
def after (pat : List Char) : List Char → Option (List Char)
  | [] => if pat.isEmpty then some [] else none
  | c :: cs => if pat.isPrefixOf (c :: cs) then some ((c :: cs).drop pat.length) else after pat cs

/-- `strings.Trim(s, cutset)` for a one-character cutset. -/
def trimChar (s : String) (c : Char) : String :=
  String.ofList ((s.toList.dropWhile (· = c)).reverse.dropWhile (· = c)).reverse

/-- `strings.ToLower`. -/
def toLower (s : String) : String := String.ofList (s.toList.map Char.toLower)

/-- `unicode.IsSpace`. -/
def isSpace (c : Char) : Bool :=
  c = ' ' || (9 ≤ c.toNat && c.toNat ≤ 13) || (0x2000 ≤ c.toNat && c.toNat ≤ 0x200A) ||
    c.toNat ∈ [0x85, 0xA0, 0x1680, 0x2028, 0x2029, 0x202F, 0x205F, 0x3000]

/-- `strings.TrimSpace`. -/
def trimSpace (s : String) : String :=
  String.ofList ((s.toList.dropWhile isSpace).reverse.dropWhile isSpace).reverse

/-- `strings.Split` for a one-character separator. -/
def split (s : String) (sep : Char) : List String := (s.toList.splitOn sep).map String.ofList

/-- `strings.SplitN(s, sep, 2)` for a one-character separator; `none` when there is no separator. -/
def splitPair (s : String) (sep : Char) : Option (String × String) :=
  match s.toList.dropWhile (· ≠ sep) with
  | [] => none
  | _ :: rest => some (String.ofList (s.toList.takeWhile (· ≠ sep)), String.ofList rest)

/-- `strings.Join` for a one-character separator. -/
def join (parts : List String) (sep : Char) : String :=
  String.ofList ([sep].intercalate (parts.map String.toList))

/-- The value of digits in a base of at most ten. -/
def ofDigits (base : Nat) : List Char → Nat → Option Nat
  | [], value => some value
  | c :: cs, value =>
      if '0' ≤ c ∧ c.toNat < '0'.toNat + base then
        ofDigits base cs (value * base + (c.toNat - '0'.toNat))
      else none

/-- `strconv.ParseUint` for a base of at most ten and 32 bits. -/
def parseUint32 (s : String) (base : Nat) : Option Nat :=
  if s = "" then none else (ofDigits base s.toList 0).filter (· < UInt32.size)

/-! ### Paths -/

/-- Go to a name from the directory `up`, whose names are newest first. -/
def enter (rooted : Bool) (up : List (List Char)) (name : List Char) : List (List Char) :=
  if name = [] ∨ name = ['.'] then up
  else if name = ['.', '.'] then
    match up with
    | [] => if rooted then [] else [name]
    | last :: rest => if last = ['.', '.'] then name :: up else rest
  else name :: up

/-- `filepath.Clean`. -/
def cleanPath (path : String) : String :=
  let rooted := path.toList.head? = some '/'
  let up := (path.toList.splitOn '/').foldl (enter rooted) []
  let text := String.join ((up.reverse.map String.ofList).intersperse "/")
  if rooted then "/" ++ text else if text = "" then "." else text

/-- `filepath.Dir`. -/
def dirOf (path : String) : String :=
  cleanPath (String.ofList ((path.toList.reverse.dropWhile (· ≠ '/')).reverse))

example : dirOf "/etc/kubernetes//pki/../ca.crt" = "/etc/kubernetes" := by decide

theorem contains_iff {s sub : String} :
    contains s sub = true ↔ ∃ as bs, s.toList = as ++ (sub.toList ++ bs) := by
  simp only [contains, List.any_eq_true, List.mem_tails, List.isPrefixOf_iff_prefix]
  constructor
  · rintro ⟨t, ⟨as, has⟩, bs, hbs⟩
    exact ⟨as, bs, by rw [hbs, has]⟩
  · rintro ⟨as, bs, h⟩
    exact ⟨sub.toList ++ bs, ⟨as, h.symm⟩, bs, rfl⟩

theorem trimSuffix_append (base suffix : String) : trimSuffix (base ++ suffix) suffix = base := by
  have hsuffix : suffix.toList.isSuffixOf (base ++ suffix).toList = true := by
    rw [List.isSuffixOf_iff_suffix, String.toList_append]
    exact List.suffix_append _ _
  rw [trimSuffix, if_pos hsuffix, String.toList_append, List.length_append, Nat.add_sub_cancel,
    List.take_left, String.ofList_toList]

/-! ### Splitting -/

/-- The parts of a joined text, when none of them has the separator. -/
theorem split_join {parts : List String} {sep : Char} (hne : parts ≠ [])
    (hsep : ∀ part ∈ parts, sep ∉ part.toList) : split (join parts sep) sep = parts := by
  have hparts : ∀ cs ∈ parts.map String.toList, sep ∉ cs := by
    intro cs hcs
    obtain ⟨part, hpart, rfl⟩ := List.mem_map.1 hcs
    exact hsep part hpart
  rw [split, join, String.toList_ofList,
    List.splitOn_intercalate sep hparts (by simpa using hne), List.map_map]
  simp

/-- A key without the separator, the separator and a value. -/
theorem splitPair_append {k v : String} {sep : Char} (hk : sep ∉ k.toList) :
    splitPair (k ++ String.ofList [sep] ++ v) sep = some (k, v) := by
  have hchars : (k ++ String.ofList [sep] ++ v).toList = k.toList ++ sep :: v.toList := by
    simp
  have hbefore : ∀ c ∈ k.toList, (decide (c ≠ sep)) = true := by
    intro c hc
    rw [decide_eq_true_eq]
    rintro rfl
    exact hk hc
  rw [splitPair, hchars, List.dropWhile_append_of_pos hbefore, List.takeWhile_append_of_pos hbefore]
  simp

/-- A text that neither begins nor ends with white space. -/
def Trimmed (s : String) : Prop :=
  (s.toList.head?.all fun c => !isSpace c) = true ∧ (s.toList.getLast?.all fun c => !isSpace c) = true

instance (s : String) : Decidable (Trimmed s) := inferInstanceAs (Decidable (_ ∧ _))

theorem dropWhile_eq_self {p : Char → Bool} {cs : List Char} (h : (cs.head?.all fun c => !p c) = true) :
    cs.dropWhile p = cs := by
  cases cs with
  | nil => rfl
  | cons c cs =>
    have hc : ¬ p c = true := by simpa using h
    rw [List.dropWhile_cons, if_neg hc]

theorem trimSpace_of_trimmed {s : String} (h : Trimmed s) : trimSpace s = s := by
  rw [trimSpace, dropWhile_eq_self h.1, dropWhile_eq_self, List.reverse_reverse, String.ofList_toList]
  rw [List.head?_reverse]
  exact h.2

/-! ### A pattern at the end -/

theorem deleteAllAux_skip (pat : List Char) (cs : List Char) :
    deleteAllAux pat cs.length cs = [] := by
  induction cs with
  | nil => rfl
  | cons c cs ih => exact ih

/-- A pattern whose first character does not come again does not overlap with itself: it is not
found before its place at the end of a text that does not contain it. -/
theorem not_prefix_append {a : Char} {as base : List Char} (ha : a ∉ as) (hne : base ≠ [])
    (hbase : ¬a :: as <+: base) : ¬a :: as <+: base ++ (a :: as) := by
  intro h
  rcases List.prefix_or_prefix_of_prefix h (List.prefix_append base (a :: as)) with hin | hin
  · exact hbase hin
  · obtain ⟨v, hv⟩ := hin
    -- the pattern is `base ++ v`, and the rest `v` of it begins like the pattern
    cases base with
    | nil => exact hne rfl
    | cons c base =>
      rw [List.cons_append, List.cons.injEq] at hv
      rw [← hv.1, ← hv.2] at h
      have hbegins : v <+: c :: (base ++ v) := by
        rw [← List.cons_append, List.prefix_append_right_inj] at h
        exact h
      cases v with
      | nil =>
        rw [List.append_nil] at hv
        rw [← hv.1, ← hv.2] at hbase
        exact hbase (List.prefix_refl _)
      | cons d v =>
        rw [List.cons_prefix_cons] at hbegins
        refine ha ?_
        rw [← hv.2, ← hv.1, ← hbegins.1]
        exact List.mem_append_right _ List.mem_cons_self

theorem deleteAllAux_append {a : Char} {as base : List Char} (ha : a ∉ as)
    (hbase : ∀ pre post, base ≠ pre ++ (a :: as ++ post)) :
    deleteAllAux (a :: as) 0 (base ++ (a :: as)) = base := by
  induction base with
  | nil =>
    have hself : (a :: as).isPrefixOf (a :: as) = true :=
      List.isPrefixOf_iff_prefix.2 (List.prefix_refl _)
    rw [List.nil_append, deleteAllAux, if_pos hself]
    exact deleteAllAux_skip _ as
  | cons c base ih =>
    have hnot : ¬(a :: as).isPrefixOf (c :: base ++ (a :: as)) = true := by
      rw [List.isPrefixOf_iff_prefix]
      refine not_prefix_append ha (List.cons_ne_nil c base) ?_
      rintro ⟨post, hpost⟩
      exact hbase [] post hpost.symm
    rw [List.cons_append] at hnot ⊢
    rw [deleteAllAux, if_neg hnot, ih]
    intro pre post heq
    rw [heq] at hbase
    exact hbase (c :: pre) post rfl

/-- Only the occurrence at the end is deleted when there is no other. -/
theorem deleteAll_append {base pat : String} {a : Char} {as : List Char}
    (hpat : pat.toList = a :: as) (ha : a ∉ as) (hbase : contains base pat = false) :
    deleteAll (base ++ pat) pat = base := by
  rw [deleteAll, String.toList_append, hpat, deleteAllAux_append ha, String.ofList_toList]
  intro pre post heq
  have hin : contains base pat = true := contains_iff.2 ⟨pre, post, by rw [heq, hpat]⟩
  rw [hbase] at hin
  cases hin

/-! ## Regular expressions -/

/-- How often a piece is taken. -/
inductive Quantifier where
  | once
  | star
  | plus
  deriving DecidableEq, Repr

/-- A literal character, or `none` for `.`, with its quantifier. -/
structure Piece where
  char : Option Char
  quantifier : Quantifier
  deriving DecidableEq, Repr

/-- `.` stands for every character but the line feed. -/
def charMatches (p : Option Char) (c : Char) : Bool :=
  match p with
  | some d => c = d
  | none => c ≠ '\n'

/-- The pieces of a pattern of literal characters, `.`, `*` and `+`. -/
def parsePattern : List Char → List Piece
  | [] => []
  | c :: '*' :: cs => ⟨if c = '.' then none else some c, .star⟩ :: parsePattern cs
  | c :: '+' :: cs => ⟨if c = '.' then none else some c, .plus⟩ :: parsePattern cs
  | c :: cs => ⟨if c = '.' then none else some c, .once⟩ :: parsePattern cs

/-- What can remain of a text after any number of characters that match `p`. -/
def starRests (p : Option Char) : List Char → List (List Char)
  | [] => [[]]
  | c :: cs => (c :: cs) :: if charMatches p c then starRests p cs else []

/-- What can remain of a text after one piece. -/
def Piece.rests (p : Piece) (text : List Char) : List (List Char) :=
  match p.quantifier, text with
  | .star, cs => starRests p.char cs
  | .once, c :: cs => if charMatches p.char c then [cs] else []
  | .plus, c :: cs => if charMatches p.char c then starRests p.char cs else []
  | _, [] => []

/-- What can remain of the given texts after a sequence of pieces. -/
def rests : List Piece → List (List Char) → List (List Char)
  | [], texts => texts
  | p :: ps, texts => rests ps (texts.flatMap p.rests)

/-- `regexp.MatchString`: the pattern matches somewhere in the text. -/
def matchString (pattern text : String) : Bool :=
  !(rests (parsePattern pattern.toList) text.toList.tails).isEmpty

/-! ### Literal patterns -/

/-- The piece of a character that stands alone in a pattern. -/
def literal (p : Char) : Piece := ⟨if p = '.' then none else some p, .once⟩

/-- The character matches the character of the pattern. -/
def Fits (p c : Char) : Prop := charMatches (literal p).char c = true

theorem fits_self (c : Char) : Fits c c := by
  by_cases hdot : c = '.'
  · simp [Fits, literal, charMatches, hdot]
  · simp [Fits, literal, charMatches, hdot]

theorem fits_iff_eq {p c : Char} (hp : p ≠ '.') : Fits p c ↔ c = p := by
  simp [Fits, literal, charMatches, hp]

/-- No character of the pattern repeats the one before it. -/
def Plain (cs : List Char) : Prop := ∀ c ∈ cs, c ≠ '*' ∧ c ≠ '+'

theorem parsePattern_cons {c d : Char} {cs : List Char} (hd : d ≠ '*' ∧ d ≠ '+') :
    parsePattern (c :: d :: cs) = literal c :: parsePattern (d :: cs) := by
  rw [parsePattern]
  · rfl
  · intro cs' heq
    exact hd.1 (List.cons.inj heq).1
  · intro cs' heq
    exact hd.2 (List.cons.inj heq).1

/-- A plain text followed by `.+`. -/
theorem parsePattern_dotPlus {cs : List Char} (h : Plain cs) :
    parsePattern (cs ++ ['.', '+']) = cs.map literal ++ [⟨none, .plus⟩] := by
  induction cs with
  | nil => rfl
  | cons c cs ih =>
    have hrest : Plain cs := fun d hd => h d (List.mem_cons_of_mem _ hd)
    rw [List.map_cons, List.cons_append, List.cons_append, ← ih hrest]
    cases cs with
    | nil => exact parsePattern_cons (by decide)
    | cons d cs => exact parsePattern_cons (hrest d List.mem_cons_self)

theorem rests_append (ps qs : List Piece) (texts : List (List Char)) :
    rests (ps ++ qs) texts = rests qs (rests ps texts) := by
  induction ps generalizing texts with
  | nil => rfl
  | cons p ps ih => exact ih _

theorem literal_rests (p c : Char) (text : List Char) :
    (literal p).rests (c :: text) = if charMatches (literal p).char c then [text] else [] := rfl

/-- What remains after a literal pattern: the texts begin with characters that fit. -/
theorem mem_rests_literal {cs rest : List Char} {texts : List (List Char)} :
    rest ∈ rests (cs.map literal) texts ↔
      ∃ mid, mid ++ rest ∈ texts ∧ List.Forall₂ Fits cs mid := by
  induction cs generalizing texts with
  | nil => simp [rests]
  | cons p cs ih =>
    rw [List.map_cons, rests, ih]
    simp only [List.mem_flatMap]
    constructor
    · rintro ⟨mid, ⟨text, htext, hmid⟩, hfits⟩
      cases text with
      | nil => cases hmid
      | cons c text =>
        rw [literal_rests] at hmid
        split at hmid
        next hc =>
          rw [List.mem_singleton] at hmid
          exact ⟨c :: mid, by rwa [List.cons_append, hmid], .cons hc hfits⟩
        · cases hmid
    · rintro ⟨mid, hmid, hfits⟩
      cases hfits with
      | @cons _ c _ mid hc hfits =>
        refine ⟨mid, ⟨_, hmid, ?_⟩, hfits⟩
        have hmatches : charMatches (literal p).char c = true := hc
        rw [List.cons_append, literal_rests, if_pos hmatches]
        exact List.mem_singleton_self _

/-- `regexp.MatchString` with a plain text followed by `.+`: somewhere in the text stand characters
that fit, and after them one that is not a line feed. -/
theorem matchString_dotPlus {pat text : String} (h : Plain pat.toList) :
    matchString (pat ++ ".+") text = true ↔ ∃ pre mid c post,
      text.toList = pre ++ (mid ++ c :: post) ∧ List.Forall₂ Fits pat.toList mid ∧ c ≠ '\n' := by
  have hpattern : parsePattern (pat ++ ".+").toList = pat.toList.map literal ++ [⟨none, .plus⟩] := by
    rw [String.toList_append]
    exact parsePattern_dotPlus h
  rw [matchString, hpattern, rests_append, Bool.not_eq_true', List.isEmpty_eq_false_iff_exists_mem]
  simp only [rests, List.mem_flatMap]
  constructor
  · rintro ⟨rest, after, hafter, hrest⟩
    obtain ⟨mid, hmid, hfits⟩ := mem_rests_literal.1 hafter
    obtain ⟨pre, hpre⟩ := (List.mem_tails _ _).1 hmid
    cases after with
    | nil => cases hrest
    | cons c post =>
      refine ⟨pre, mid, c, post, hpre.symm, hfits, ?_⟩
      rintro rfl
      simp [Piece.rests, charMatches] at hrest
  · rintro ⟨pre, mid, c, post, htext, hfits, hc⟩
    have hmid : c :: post ∈ rests (pat.toList.map literal) text.toList.tails :=
      mem_rests_literal.2 ⟨mid, (List.mem_tails _ _).2 ⟨pre, htext.symm⟩, hfits⟩
    have hplus : post ∈ (⟨none, .plus⟩ : Piece).rests (c :: post) := by
      cases post <;> simp [Piece.rests, charMatches, hc, starRests]
    exact ⟨post, c :: post, hmid, hplus⟩

end Byoh.Foundation.Text
