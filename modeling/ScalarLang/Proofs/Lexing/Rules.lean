import Mathlib.Computability.Language
import ScalarLang.Token.Scan

/-!
# The rules of tokens

The tokens of the language, each as a set of texts, in the order in which the rules are
tried:

    word     [A-Za-z_][A-Za-z0-9_]*                        the longest
    float    [0-9]+ . [0-9]+                               the longest
    integer  [0-9]+                                        the longest
    string   " ([^"\] | \ any)* "
    blanks   [ \t\r]+                                      the longest
    newline  \n
    comment  // [^\n]*                                     the longest
             or slash-star any* star-slash                 the shortest
    cluster  ... ..< -> /> </ == != <= >= && ||            the longest
    sign     one of the other symbols and operators

Letters and digits are those of ASCII, and any character includes a newline.
-/

set_option autoImplicit false

namespace ScalarLang

namespace TokenRule

open Computability

/-! ## Classes of characters -/

def Digit (character : Char) : Prop := character ∈ "0123456789".toList

def Capital (character : Char) : Prop := character ∈ "ABCDEFGHIJKLMNOPQRSTUVWXYZ".toList

def Lowercase (character : Char) : Prop := character ∈ "abcdefghijklmnopqrstuvwxyz".toList

def WordStart (character : Char) : Prop :=
  Capital character ∨ Lowercase character ∨ character = '_'

def WordPart (character : Char) : Prop := WordStart character ∨ Digit character

def Blank (character : Char) : Prop := character ∈ [' ', '\t', '\r']

instance : DecidablePred Digit := fun _ => inferInstanceAs (Decidable (_ ∈ _))

instance : DecidablePred Capital := fun _ => inferInstanceAs (Decidable (_ ∈ _))

instance : DecidablePred Lowercase := fun _ => inferInstanceAs (Decidable (_ ∈ _))

instance : DecidablePred WordStart := fun _ => inferInstanceAs (Decidable (_ ∨ _))

instance : DecidablePred WordPart := fun _ => inferInstanceAs (Decidable (_ ∨ _))

instance : DecidablePred Blank := fun _ => inferInstanceAs (Decidable (_ ∈ _))

/-! ## Texts -/

def one (accepts : Char → Prop) : Language Char :=
  {text | ∃ character, accepts character ∧ text = [character]}

def any : Language Char := one fun _ => True

def exactly (word : String) : Language Char := {word.toList}

def repeated (texts : Language Char) : Language Char := texts * texts∗

def clusterTexts : List String :=
  ["...", "..<", "->", "/>", "</", "==", "!=", "<=", ">=", "&&", "||"]

def signs : String := "\x7b\x7d()[],.:;+-*/%^!=<>&|"

end TokenRule

/-- Texts, and whether the longest or the shortest of those counts that a text begins
with. -/
structure TokenPattern where
  texts : Language Char
  longest : Bool

namespace TokenPattern

structure Matches (pattern : TokenPattern) (text found : List Char) : Prop where
  begins : found <+: text
  isText : found ∈ pattern.texts

structure Picks (pattern : TokenPattern) (text found : List Char) : Prop
    extends pattern.Matches text found where
  prefers : ∀ other, pattern.Matches text other →
    if pattern.longest then other.length ≤ found.length else found.length ≤ other.length

theorem Picks.unique {pattern : TokenPattern} {text found other : List Char}
    (picks : pattern.Picks text found) (picksOther : pattern.Picks text other) :
    found = other := by
  have sameLength : found.length = other.length := by
    have ofFound := picks.prefers other picksOther.toMatches
    have ofOther := picksOther.prefers found picks.toMatches
    split at ofFound <;> rename_i isLongest
    · rw [if_pos isLongest] at ofOther
      exact Nat.le_antisymm ofOther ofFound
    · rw [if_neg isLongest] at ofOther
      exact Nat.le_antisymm ofFound ofOther
  exact (List.prefix_of_prefix_length_le picks.begins picksOther.begins
    (Nat.le_of_eq sameLength)).eq_of_length sameLength

end TokenPattern

inductive TokenRule where
  | word
  | float
  | integer
  | string
  | blanks
  | newline
  | comment
  | cluster
  | sign
deriving DecidableEq, Repr

namespace TokenRule

open Computability

def order : List TokenRule :=
  [.word, .float, .integer, .string, .blanks, .newline, .comment, .cluster, .sign]

/-- What a rule matches; only the rule for comments has two alternatives. -/
def patterns : TokenRule → List TokenPattern
  | .word => [⟨one WordStart * (one WordPart)∗, true⟩]
  | .float => [⟨repeated (one Digit) * exactly "." * repeated (one Digit), true⟩]
  | .integer => [⟨repeated (one Digit), true⟩]
  | .string =>
    [⟨exactly "\"" *
      (one (fun character => character ≠ '"' ∧ character ≠ '\\') + exactly "\\" * any)∗ *
      exactly "\"", true⟩]
  | .blanks => [⟨repeated (one Blank), true⟩]
  | .newline => [⟨exactly "\n", true⟩]
  | .comment =>
    [⟨exactly "//" * (one (· ≠ '\n'))∗, true⟩, ⟨exactly "/*" * any∗ * exactly "*/", false⟩]
  | .cluster => [⟨{text | String.ofList text ∈ clusterTexts}, true⟩]
  | .sign => [⟨one (· ∈ signs.toList), true⟩]

/-- The kind of a word: a keyword before a truth value, and then by its first letter. -/
inductive WordKind (word : List Char) : TokenKind → Prop
  | keyword (keyword : Keyword) (isWord : keyword.text.toList = word) :
      WordKind word (.keyword keyword)
  | boolean (noKeyword : ∀ keyword : Keyword, keyword.text.toList ≠ word)
      (isTruth : word = "true".toList ∨ word = "false".toList) : WordKind word .boolean
  | typeName (noKeyword : ∀ keyword : Keyword, keyword.text.toList ≠ word)
      (noTruth : word ≠ "true".toList ∧ word ≠ "false".toList)
      (capital : ∃ first rest, word = first :: rest ∧ Capital first) : WordKind word .typeName
  | identifier (noKeyword : ∀ keyword : Keyword, keyword.text.toList ≠ word)
      (noTruth : word ≠ "true".toList ∧ word ≠ "false".toList)
      (noCapital : ∀ first rest, word = first :: rest → ¬ Capital first) :
      WordKind word .identifier

/-- The kind of the token that a rule makes of a text: that of a sign is the kind with
this text. -/
def Gives (rule : TokenRule) (found : List Char) (kind : TokenKind) : Prop :=
  match rule with
  | .word => WordKind found kind
  | .float => kind = .float
  | .integer => kind = .integer
  | .string => kind = .string
  | .blanks => kind = .whitespace
  | .newline => kind = .newline
  | .comment => kind = .comment
  | .cluster => kind.fixedText? = some (.ofList found)
  | .sign => kind.fixedText? = some (.ofList found)

def Applies (rule : TokenRule) (text : List Char) : Prop :=
  ∃ pattern ∈ rule.patterns, ∃ found, pattern.Matches text found

def Picks (rule : TokenRule) (text found : List Char) : Prop :=
  ∃ pattern ∈ rule.patterns, pattern.Picks text found

structure IsFirst (rule : TokenRule) (text : List Char) : Prop where
  applies : rule.Applies text
  noEarlier : ∀ earlier ∈ order.takeWhile (· ≠ rule), ¬ earlier.Applies text

theorem Picks.applies {rule : TokenRule} {text found : List Char}
    (picks : rule.Picks text found) : rule.Applies text := by
  obtain ⟨pattern, isPattern, picks⟩ := picks
  exact ⟨pattern, isPattern, found, picks.toMatches⟩

theorem IsFirst.unique {rule other : TokenRule} {text : List Char} (isFirst : rule.IsFirst text)
    (isFirstOther : other.IsFirst text) : rule = other := by
  by_contra different
  have inOrder : rule ∈ order.takeWhile (· ≠ other) ∨ other ∈ order.takeWhile (· ≠ rule) := by
    cases rule <;> cases other <;> first | exact absurd rfl different | decide
  rcases inOrder with before | after
  · exact isFirstOther.noEarlier rule before isFirst.applies
  · exact isFirst.noEarlier other after isFirstOther.applies

/-! ## Membership -/

section Membership

variable {accepts : Char → Prop} {text : List Char}

theorem mem_one {character : Char} : [character] ∈ one accepts ↔ accepts character := by
  constructor
  · rintro ⟨same, accepted, isText⟩
    cases isText
    exact accepted
  · intro accepted
    exact ⟨character, accepted, rfl⟩

theorem mem_exactly {word : String} : text ∈ exactly word ↔ text = word.toList := Iff.rfl

theorem mem_star_one : text ∈ (one accepts)∗ ↔ ∀ character ∈ text, accepts character := by
  rw [Language.mem_kstar]
  constructor
  · rintro ⟨parts, rfl, areOne⟩ character member
    obtain ⟨part, isPart, inPart⟩ := List.mem_flatten.mp member
    obtain ⟨found, accepted, rfl⟩ := areOne part isPart
    rwa [List.mem_singleton.mp inPart]
  · intro accepted
    refine ⟨text.map fun character => [character], ?_, ?_⟩
    · rw [← List.flatMap_def, List.flatMap_singleton']
    · intro part isPart
      obtain ⟨character, member, rfl⟩ := List.mem_map.mp isPart
      exact mem_one.mpr (accepted character member)

theorem mem_repeated_one :
    text ∈ repeated (one accepts) ↔ text ≠ [] ∧ ∀ character ∈ text, accepts character := by
  unfold repeated
  rw [Language.mem_mul]
  constructor
  · rintro ⟨_, ⟨first, accepted, rfl⟩, others, areOthers, rfl⟩
    refine ⟨by simp, ?_⟩
    simpa [accepted] using mem_star_one.mp areOthers
  · rintro ⟨some, accepted⟩
    obtain ⟨first, others, rfl⟩ := List.exists_cons_of_ne_nil some
    obtain ⟨ofFirst, ofOthers⟩ := List.forall_mem_cons.mp accepted
    exact ⟨[first], mem_one.mpr ofFirst, others, mem_star_one.mpr ofOthers, rfl⟩

theorem mem_word : text ∈ one WordStart * (one WordPart)∗ ↔
    ∃ first rest, text = first :: rest ∧ WordStart first ∧
      ∀ character ∈ rest, WordPart character := by
  rw [Language.mem_mul]
  constructor
  · rintro ⟨_, ⟨first, isStart, rfl⟩, rest, areParts, rfl⟩
    exact ⟨first, rest, rfl, isStart, mem_star_one.mp areParts⟩
  · rintro ⟨first, rest, rfl, isStart, areParts⟩
    exact ⟨[first], mem_one.mpr isStart, rest, mem_star_one.mpr areParts, rfl⟩

theorem mem_float : text ∈ repeated (one Digit) * exactly "." * repeated (one Digit) ↔
    ∃ whole decimals, text = whole ++ '.' :: decimals ∧ whole ≠ [] ∧ decimals ≠ [] ∧
      (∀ character ∈ whole, Digit character) ∧ ∀ character ∈ decimals, Digit character := by
  rw [Language.mem_mul]
  constructor
  · rintro ⟨_, ⟨whole, isWhole, _, rfl, rfl⟩, decimals, areDecimals, rfl⟩
    obtain ⟨someWhole, digitsWhole⟩ := mem_repeated_one.mp isWhole
    obtain ⟨someDecimals, digits⟩ := mem_repeated_one.mp areDecimals
    exact ⟨whole, decimals, by simp, someWhole, someDecimals, digitsWhole, digits⟩
  · rintro ⟨whole, decimals, rfl, someWhole, someDecimals, digitsWhole, digits⟩
    have isWhole := mem_repeated_one.mpr ⟨someWhole, digitsWhole⟩
    exact ⟨whole ++ ['.'], Language.append_mem_mul isWhole rfl, decimals,
      mem_repeated_one.mpr ⟨someDecimals, digits⟩, by simp⟩

inductive Quoted : List Char → Prop
  | close : Quoted ['"']
  | plain {character : Char} {rest : List Char} (noQuote : character ≠ '"')
      (noEscape : character ≠ '\\') (quoted : Quoted rest) : Quoted (character :: rest)
  | escaped {character : Char} {rest : List Char} (quoted : Quoted rest) :
      Quoted ('\\' :: character :: rest)

theorem mem_string : text ∈ exactly "\"" *
      (one (fun character => character ≠ '"' ∧ character ≠ '\\') + exactly "\\" * any)∗ *
      exactly "\"" ↔ ∃ quoted, text = '"' :: quoted ∧ Quoted quoted := by
  rw [Language.mem_mul]
  constructor
  · rintro ⟨_, ⟨_, rfl, _, ⟨parts, rfl, areParts⟩, rfl⟩, _, rfl, rfl⟩
    refine ⟨parts.flatten ++ ['"'], by simp, ?_⟩
    induction parts with
    | nil => exact .close
    | cons part parts inductionHypothesis =>
        obtain ⟨isPart, others⟩ := List.forall_mem_cons.mp areParts
        have rest := inductionHypothesis others
        rcases isPart with
          ⟨character, ⟨noQuote, noEscape⟩, rfl⟩ | ⟨_, rfl, _, ⟨character, -, rfl⟩, rfl⟩
        · exact .plain noQuote noEscape rest
        · exact .escaped rest
  · rintro ⟨quoted, rfl, isQuoted⟩
    suffices inner : ∃ parts : List (List Char), quoted = parts.flatten ++ ['"'] ∧
        ∀ part ∈ parts, part ∈ one (fun character => character ≠ '"' ∧ character ≠ '\\') +
          exactly "\\" * any by
      obtain ⟨parts, rfl, areParts⟩ := inner
      refine ⟨'"' :: parts.flatten, ?_, ['"'], rfl, rfl⟩
      exact Language.append_mem_mul (a := ['"']) rfl (Language.join_mem_kstar areParts)
    induction isQuoted with
    | close => exact ⟨[], rfl, by simp⟩
    | @plain character rest noQuote noEscape _ inductionHypothesis =>
        obtain ⟨parts, rfl, areParts⟩ := inductionHypothesis
        exact ⟨[character] :: parts, rfl,
          List.forall_mem_cons.mpr ⟨.inl ⟨character, ⟨noQuote, noEscape⟩, rfl⟩, areParts⟩⟩
    | @escaped character rest _ inductionHypothesis =>
        obtain ⟨parts, rfl, areParts⟩ := inductionHypothesis
        exact ⟨['\\', character] :: parts, rfl,
          List.forall_mem_cons.mpr
            ⟨.inr ⟨['\\'], rfl, [character], mem_one.mpr trivial, rfl⟩, areParts⟩⟩

theorem mem_lineComment : text ∈ exactly "//" * (one (· ≠ '\n'))∗ ↔
    ∃ body, text = '/' :: '/' :: body ∧ ∀ character ∈ body, character ≠ '\n' := by
  rw [Language.mem_mul]
  constructor
  · rintro ⟨_, rfl, body, isBody, rfl⟩
    exact ⟨body, rfl, mem_star_one.mp isBody⟩
  · rintro ⟨body, rfl, noNewline⟩
    exact ⟨['/', '/'], rfl, body, mem_star_one.mpr noNewline, rfl⟩

theorem mem_blockComment : text ∈ exactly "/*" * any∗ * exactly "*/" ↔
    ∃ body, text = '/' :: '*' :: (body ++ ['*', '/']) := by
  rw [Language.mem_mul]
  constructor
  · rintro ⟨_, ⟨_, rfl, body, -, rfl⟩, _, rfl, rfl⟩
    exact ⟨body, by simp⟩
  · rintro ⟨body, rfl⟩
    have isBody : body ∈ any∗ := mem_star_one.mpr fun _ _ => trivial
    exact ⟨'/' :: '*' :: body, Language.append_mem_mul (a := ['/', '*']) rfl isBody, ['*', '/'],
      rfl, rfl⟩

end Membership

end TokenRule

end ScalarLang
