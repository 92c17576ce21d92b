import ScalarLang.Proofs.Lexing.Separation

/-!
# Newlines with carriage returns before them

A carriage return is a blank, so one before a newline goes to the blanks or to the comment
that the newline ended, or is trivia of its own.  A text without strings keeps its tokens
outside of trivia when every newline gets one, and only newlines move to the right.
-/

set_option autoImplicit false

namespace ScalarLang

/-! ## Texts -/

namespace Text

def crlf (text : List Char) : List Char :=
  text.flatMap fun character => if character = '\n' then ['\r', '\n'] else [character]

variable {character : Char} {text rest : List Char}

@[simp]
theorem crlf_nil : crlf [] = [] := rfl

@[simp]
theorem crlf_newline : crlf ('\n' :: rest) = '\r' :: '\n' :: crlf rest := rfl

theorem crlf_cons (notNewline : character ≠ '\n') :
    crlf (character :: rest) = character :: crlf rest := by
  simp [crlf, notNewline]

theorem crlf_append (left right : List Char) : crlf (left ++ right) = crlf left ++ crlf right :=
  List.flatMap_append

theorem crlf_eq_self (noNewline : '\n' ∉ text) : crlf text = text := by
  induction text with
  | nil => rfl
  | cons character text inductionHypothesis =>
      rw [List.mem_cons, not_or] at noNewline
      rw [crlf_cons (Ne.symm noNewline.1), inductionHypothesis noNewline.2]

theorem head?_crlf_iff (notReturn : character ≠ '\r') (notNewline : character ≠ '\n') :
    (crlf text).head? = some character ↔ text.head? = some character := by
  cases text with
  | nil => rfl
  | cons first others =>
      by_cases isNewline : first = '\n'
      · subst isNewline
        simp [notReturn.symm, notNewline.symm]
      · rw [crlf_cons isNewline]
        rfl

end Text

open Text (crlf)

/-! ## Lexemes -/

namespace Lexeme

variable {first : Char} {others : List Char} {lexeme : Lexeme}

theorem commentTail_crlf (text : List Char) : ∀ tail, commentTail text = some tail →
    commentTail (crlf text) = some (crlf (text.take tail)).length := by
  fun_induction commentTail text with
  | case1 => simp
  | case2 character rest closes =>
      intro tail found
      obtain rfl : 2 = tail := Option.some.inj found
      obtain ⟨rfl, isSlash⟩ := closes
      obtain ⟨others, rfl⟩ := List.head?_eq_some_iff.mp isSlash
      rfl
  | case3 character rest goesOn inductionHypothesis =>
      intro tail found
      obtain ⟨count, isCount, rfl⟩ := Option.map_eq_some_iff.mp found
      have ofRest := inductionHypothesis count isCount
      by_cases isNewline : character = '\n'
      · subst isNewline
        rw [Text.crlf_newline, commentTail, if_neg (by simp), commentTail, if_neg (by simp),
          ofRest]
        rfl
      · have stillOpen : ¬ (character = '*' ∧ (crlf rest).head? = some '/') := by
          rwa [Text.head?_crlf_iff (by decide) (by decide)]
        rw [Text.crlf_cons isNewline, commentTail, if_neg stillOpen, ofRest, List.take_succ_cons,
          Text.crlf_cons isNewline]
        rfl

/-- What a lexeme becomes in a text with carriage returns: it has the same characters up to
those returns inside it, or it is trivia before a newline and takes the return along. -/
inductive Returns (first : Char) (others : List Char) (lexeme : Lexeme) : Prop
  | same (scanned : scan first (crlf others) =
        .ok ⟨lexeme.kind, (crlf (others.take lexeme.tail)).length⟩)
      (onLine : lexeme.kind.isTrivia = false → '\n' ∉ others.take lexeme.tail)
  | longer {more : List Char} (isTrivia : lexeme.kind.isTrivia = true)
      (isNext : others.drop lexeme.tail = '\n' :: more)
      (scanned : scan first (crlf others) =
        .ok ⟨lexeme.kind, (crlf (others.take lexeme.tail)).length + 1⟩)

section Line

variable {line more : List Char}

theorem crlf_line (noNewline : '\n' ∉ line) :
    crlf (line ++ '\n' :: more) = line ++ '\r' :: '\n' :: crlf more := by
  rw [Text.crlf_append, Text.crlf_eq_self noNewline, Text.crlf_newline]

theorem crlf_take_line (more : List Char) (noNewline : '\n' ∉ line) {count : Nat}
    (inside : count ≤ line.length) :
    '\n' ∉ (line ++ '\n' :: more).take count ∧
      (crlf ((line ++ '\n' :: more).take count)).length = count := by
  rw [List.take_append_of_le_length inside]
  have noneTaken : '\n' ∉ line.take count := fun taken => noNewline (List.mem_of_mem_take taken)
  rw [Text.crlf_eq_self noneTaken]
  exact ⟨noneTaken, List.length_take_of_le inside⟩

/-- A lexeme that ends before the return keeps its characters. -/
theorem Returns.of_inside (noNewline : '\n' ∉ line) (inside : lexeme.tail ≤ line.length)
    (scanned : scan first (line ++ '\r' :: '\n' :: crlf more) = .ok lexeme) :
    Returns first (line ++ '\n' :: more) lexeme := by
  obtain ⟨noneTaken, isLength⟩ := crlf_take_line more noNewline inside
  refine .same ?_ fun _ => noneTaken
  rw [isLength, crlf_line noNewline]
  exact scanned

/-- Trivia that reach the end of a line take the return along. -/
theorem Returns.of_whole (noNewline : '\n' ∉ line) (isTrivia : lexeme.kind.isTrivia = true)
    (isWhole : lexeme.tail = line.length)
    (scanned : scan first (line ++ '\r' :: '\n' :: crlf more) =
      .ok ⟨lexeme.kind, lexeme.tail + 1⟩) :
    Returns first (line ++ '\n' :: more) lexeme := by
  obtain ⟨-, isLength⟩ := crlf_take_line more noNewline (Nat.le_of_eq isWhole)
  refine .longer isTrivia (List.drop_left' isWhole.symm) ?_
  rw [isLength, crlf_line noNewline]
  exact scanned

theorem returns_blanks (noNewline : '\n' ∉ line) (isSpace : isBlank first = true) :
    Returns first (line ++ '\n' :: more) ⟨.whitespace, (line.takeWhile isBlank).length⟩ := by
  have scanned : scan first (line ++ '\r' :: '\n' :: crlf more) = .ok ⟨.whitespace, _⟩ :=
    scan_of_blank isSpace
  rw [List.takeWhile_append] at scanned
  by_cases isWhole : (line.takeWhile isBlank).length = line.length
  · rw [if_pos isWhole, List.length_append, ← isWhole] at scanned
    exact .of_whole noNewline rfl isWhole scanned
  · rw [if_neg isWhole] at scanned
    exact .of_inside noNewline (length_takeWhile_le isBlank line) scanned

theorem returns_lineComment (noNewline : '\n' ∉ '/' :: line) :
    Returns '/' (('/' :: line) ++ '\n' :: more) ⟨.comment, line.length + 1⟩ := by
  refine .of_whole noNewline rfl rfl ?_
  have onLine : '\n' ∉ line ++ ['\r'] := by
    simpa using noNewline
  have scanned := @scan_lineComment _ ('\n' :: crlf more) onLine (by simp)
  rw [List.length_append] at scanned
  rw [List.cons_append, List.append_cons]
  exact scanned

end Line

/-- Every lexeme but a string is found again. -/
theorem returns_of_scan (scanned : scan first others = .ok lexeme)
    (notString : lexeme.kind ≠ .string) : Returns first others lexeme := by
  by_cases breaks : '\n' ∈ others
  · obtain ⟨line, more, rfl, noNewline⟩ := List.eq_append_cons_of_mem breaks
    have notQuoted : first ≠ '"' := by
      rintro rfl
      obtain ⟨tail, -, rfl⟩ := scan_quote_iff.mp scanned
      exact notString rfl
    by_cases isOpen : first = '/' ∧ line.head? = some '*'
    · obtain ⟨rfl, isStar⟩ := isOpen
      obtain ⟨inner, rfl⟩ := List.head?_eq_some_iff.mp isStar
      rw [List.cons_append] at scanned ⊢
      obtain ⟨tail, found, rfl⟩ := scan_blockComment_iff.mp scanned
      refine .same (scan_blockComment_iff.mpr ⟨_, commentTail_crlf _ tail found, ?_⟩) nofun
      rfl
    rw [scan_append_separator_eq notQuoted isOpen (.inl rfl)] at scanned
    by_cases isSpace : isBlank first = true
    · rw [scan_of_blank isSpace] at scanned
      cases scanned
      exact returns_blanks noNewline isSpace
    by_cases isLine : first = '/' ∧ line.head? = some '/'
    · obtain ⟨rfl, isSlash⟩ := isLine
      obtain ⟨inner, rfl⟩ := List.head?_eq_some_iff.mp isSlash
      have onLine : '\n' ∉ inner := fun inside => noNewline (.tail _ inside)
      have isComment := @scan_lineComment _ [] onLine (by simp)
      rw [List.append_nil] at isComment
      cases scanned.symm.trans isComment
      exact returns_lineComment noNewline
    refine .of_inside noNewline (scan_tail_le scanned) ?_
    rw [scan_append_separator_eq notQuoted isOpen
      (.inr ⟨rfl, Bool.eq_false_of_not_eq_true isSpace, isLine⟩)]
    exact scanned
  · have noneTaken : '\n' ∉ others.take lexeme.tail := fun taken =>
      breaks (List.mem_of_mem_take taken)
    refine .same ?_ fun _ => noneTaken
    rw [Text.crlf_eq_self breaks, Text.crlf_eq_self noneTaken,
      List.length_take_of_le (scan_tail_le scanned)]
    exact scanned

end Lexeme

/-! ## Positions -/

namespace Position

variable {position other : Position}

structure SamePlace (position other : Position) : Prop where
  line : position.line = other.line
  column : position.column = other.column

theorem step_other {character : Char} (notNewline : character ≠ '\n') :
    position.step character =
      ⟨position.offset + character.utf8Size, position.line, position.column + 1⟩ :=
  if_neg notNewline

theorem samePlace_newline (sameLine : position.line = other.line) :
    (position.step '\n').SamePlace (other.step '\n') :=
  ⟨congrArg (· + 1) sameLine, rfl⟩

theorem SamePlace.step (same : position.SamePlace other) (character : Char) :
    (position.step character).SamePlace (other.step character) := by
  by_cases isNewline : character = '\n'
  · subst isNewline
    exact samePlace_newline same.line
  · rw [step_other isNewline, step_other isNewline]
    exact ⟨same.line, congrArg (· + 1) same.column⟩

theorem SamePlace.advance_crlf {text : List Char} (same : position.SamePlace other) :
    (position.advance text).SamePlace (other.advance (crlf text)) := by
  induction text generalizing position other with
  | nil => exact same
  | cons character text inductionHypothesis =>
      by_cases isNewline : character = '\n'
      · subst isNewline
        rw [Text.crlf_newline, advance_cons, advance_cons, advance_cons]
        exact inductionHypothesis (samePlace_newline same.line)
      · rw [Text.crlf_cons isNewline, advance_cons, advance_cons]
        exact inductionHypothesis (same.step character)

/-- A text goes on at a position, and with carriage returns at another one; the return
before a newline can be behind already. -/
inductive GoesOn : Position → List Char → Position → List Char → Prop
  | whole {position other : Position} {text : List Char} (same : position.SamePlace other) :
      GoesOn position text other (crlf text)
  | returned {position other : Position} {more : List Char}
      (sameLine : position.line = other.line) :
      GoesOn position ('\n' :: more) other ('\n' :: crlf more)

end Position

/-! ## Tokens -/

/-- A token is found again on the same line, and in the same column unless it is a newline. -/
structure Token.Keeps (token other : Token) : Prop where
  shape : token.shape = other.shape
  line : token.position.line = other.position.line
  column : token.kind ≠ .newline → token.position.column = other.position.column

def FoundAgain (tokens : List Token) (position : Position) (text : List Char) : Prop :=
  ∃ found stop, Tiles position text found stop [] ∧ List.Forall₂ Token.Keeps
    (tokens.filter (Lexer.gives false)) (found.filter (Lexer.gives false))

namespace FoundAgain

variable {token : Token} {tokens : List Token} {position : Position} {text taken more : List Char}
  {first : Char} {kind : TokenKind}

theorem skip (again : FoundAgain tokens position text) (isTrivia : token.kind.isTrivia = true) :
    FoundAgain (token :: tokens) position text := by
  obtain ⟨found, stop, tiles, keeps⟩ := again
  refine ⟨found, stop, tiles, ?_⟩
  rwa [List.filter_cons_of_neg (by simp [Lexer.gives, isTrivia])]

theorem after_trivia (again : FoundAgain tokens (position.advance (first :: taken)) more)
    (scanned : Lexeme.scan first (taken ++ more) = .ok ⟨kind, taken.length⟩)
    (isTrivia : kind.isTrivia = true) : FoundAgain tokens position (first :: (taken ++ more)) := by
  obtain ⟨found, stop, tiles, keeps⟩ := again
  refine ⟨_, stop, .cons scanned rfl tiles, ?_⟩
  rwa [List.filter_cons_of_neg (by simp [Lexer.gives, Lexeme.token, isTrivia])]

theorem cons (again : FoundAgain tokens (position.advance (first :: taken)) more)
    (scanned : Lexeme.scan first (taken ++ more) = .ok ⟨kind, taken.length⟩)
    (noTrivia : kind.isTrivia = false)
    (keeps : token.Keeps ⟨kind, .ofList (first :: taken), position⟩) :
    FoundAgain (token :: tokens) position (first :: (taken ++ more)) := by
  obtain ⟨found, stop, tiles, keepOthers⟩ := again
  have isKind : token.kind = kind := congrArg Prod.fst keeps.shape
  have isToken : Lexeme.token ⟨kind, taken.length⟩ position first taken =
      ⟨kind, .ofList (first :: taken), position⟩ := by
    simp [Lexeme.token]
  refine ⟨_, stop, .cons scanned rfl tiles, ?_⟩
  rw [isToken, List.filter_cons_of_pos (by simp [Lexer.gives, isKind, noTrivia]),
    List.filter_cons_of_pos (by simp [Lexer.gives, noTrivia])]
  exact .cons keeps keepOthers

/-- A newline is found again, with or without the return before it. -/
theorem newline {start : Position} (sameLine : start.line = position.line)
    (again : FoundAgain tokens (position.step '\n') text) :
    FoundAgain (⟨.newline, .ofList ['\n'], start⟩ :: tokens) position ('\n' :: text) := by
  have scanned : Lexeme.scan '\n' ([] ++ text) = .ok ⟨.newline, 0⟩ := rfl
  exact cons again scanned rfl ⟨rfl, sameLine, fun notNewline => absurd rfl notNewline⟩

/-- A carriage return before a newline is trivia of its own. -/
theorem after_return (again : FoundAgain tokens (position.step '\r') ('\n' :: text)) :
    FoundAgain tokens position ('\r' :: '\n' :: text) := by
  have scanned : Lexeme.scan '\r' ([] ++ '\n' :: text) = .ok ⟨.whitespace, 0⟩ := rfl
  exact after_trivia again scanned rfl

/-- A lexeme is found again if all is found again that comes after it. -/
theorem lexeme {start : Position} {others : List Char} {lexeme : Lexeme}
    (returns : Lexeme.Returns first others lexeme) (notNewline : first ≠ '\n')
    (same : start.SamePlace position)
    (later : ∀ {after : Position} {rest : List Char},
      (start.advance (first :: others.take lexeme.tail)).GoesOn
        (others.drop lexeme.tail) after rest → FoundAgain tokens after rest) :
    FoundAgain (lexeme.token start first others :: tokens) position (crlf (first :: others)) := by
  have areOthers : crlf others =
      crlf (others.take lexeme.tail) ++ crlf (others.drop lexeme.tail) := by
    rw [← Text.crlf_append, List.take_append_drop]
  have samePlace := @same.advance_crlf _ _ (first :: others.take lexeme.tail)
  rw [Text.crlf_cons notNewline] at samePlace
  rw [Text.crlf_cons notNewline, areOthers]
  cases returns with
  | same scanned onLine =>
      rw [areOthers] at scanned
      have again := later (.whole samePlace)
      cases isTrivia : lexeme.kind.isTrivia with
      | true => exact (again.after_trivia scanned isTrivia).skip isTrivia
      | false =>
          refine again.cons scanned isTrivia ⟨?_, same.line, fun _ => same.column⟩
          rw [Text.crlf_eq_self (onLine isTrivia)]
          rfl
  | @longer more isTrivia isNext scanned =>
      rw [areOthers, isNext, Text.crlf_newline, List.append_cons] at scanned
      rw [isNext, Text.crlf_newline, List.append_cons]
      rw [isNext] at later
      refine (after_trivia (later (.returned ?_)) ?_ isTrivia).skip isTrivia
      · rw [← List.cons_append, Position.advance_append]
        exact samePlace.line
      · rw [List.length_append]
        exact scanned

end FoundAgain

namespace Tiles

variable {position other after : Position} {text rest : List Char} {tokens : List Token}

/-- The tokens outside of trivia are found again in the text with carriage returns. -/
theorem foundAgain (tiles : Tiles position text tokens after [])
    (noString : ∀ token ∈ tokens, token.kind ≠ .string)
    (goesOn : position.GoesOn text other rest) : FoundAgain tokens other rest := by
  induction tokens generalizing position text other rest with
  | nil =>
      cases tiles
      cases goesOn
      exact ⟨[], other, .none, .nil⟩
  | cons token tokens inductionHypothesis =>
      cases tiles with
      | @next _ _ first others _ lexeme _ scanned tiles =>
          have noStringAfter : ∀ token ∈ tokens, token.kind ≠ .string := fun token member =>
            noString token (.tail _ member)
          have again : ∀ {after : Position} {rest : List Char},
              (position.advance (first :: others.take lexeme.tail)).GoesOn
                (others.drop lexeme.tail) after rest → FoundAgain tokens after rest :=
            inductionHypothesis tiles noStringAfter
          by_cases isNewline : first = '\n'
          · subst isNewline
            obtain rfl : ⟨.newline, 0⟩ = lexeme := Except.ok.inj scanned
            have afterNewline : ∀ {other : Position}, position.line = other.line →
                FoundAgain (⟨.newline, .ofList ['\n'], position⟩ :: tokens) other
                  ('\n' :: crlf others) := fun sameLine =>
              .newline sameLine (again (.whole (Position.samePlace_newline sameLine)))
            cases goesOn with
            | whole same =>
                have sameLine : position.line = (other.step '\r').line := same.line
                exact (afterNewline sameLine).after_return
            | returned sameLine => exact afterNewline sameLine
          · cases goesOn with
            | whole same =>
                exact .lexeme (Lexeme.returns_of_scan scanned (noString _ (.head _))) isNewline same
                  again
            | returned sameLine => exact absurd rfl isNewline

end Tiles

end ScalarLang
