import ScalarLang.Reader.Progress

/-!
# Reading from a source

The public functions of a reader.  Each takes the bound on its depth from the
number of tokens, gives a value or a syntax error, and gives the reader it left, so
that reading can go on after either.
-/

set_option autoImplicit false

namespace ScalarLang

namespace Read

variable {α : Type}

def run {limit : Nat} (action : Read α) (reader : Reader)
    (leaves : Leaves limit action reader) : Except SyntaxError α × Reader :=
  match outcome : action reader with
  | .ok value after => (.ok value, after)
  | .error (.rejected error) after => (.error error, after)
  | .error .exhausted _ => by
    unfold Leaves at leaves
    rw [outcome] at leaves
    exact leaves.elim

theorem run_eq_ok_iff {limit : Nat} {action : Read α} {reader after : Reader}
    {leaves : Leaves limit action reader} {value : α} :
    run action reader leaves = (.ok value, after) ↔ action reader = .ok value after := by
  unfold run
  split <;> rename_i outcome <;> simp_all
  unfold Leaves at leaves
  rw [outcome] at leaves
  exact leaves.elim

theorem run_eq_error_iff {limit : Nat} {action : Read α} {reader after : Reader}
    {leaves : Leaves limit action reader} {error : SyntaxError} :
    run action reader leaves = (.error error, after) ↔
      action reader = .error (.rejected error) after := by
  unfold run
  split <;> rename_i outcome <;> simp_all
  unfold Leaves at leaves
  rw [outcome] at leaves
  exact leaves.elim

end Read

namespace Reader

/-- A reader at the start of a stream; a fault before the first token is an
error at once. -/
def ofStream (stream : TokenStream) : Except SyntaxError Reader :=
  match stream.tokens, stream.ending with
  | [], .fault error => .error (.ofLexError error)
  | tokens, ending => .ok ⟨tokens, ending, .empty 0, true⟩

def ofSource (source : Source) : Except SyntaxError Reader :=
  ofStream (.ofText source.characters)

def budget (reader : Reader) : Nat := 8 * reader.remaining + 4

theorem allows_budget {rank : Nat} (reader : Reader) (small : rank ≤ 4) :
    Read.Allows reader.budget rank reader :=
  Nat.add_le_add_left small _

def readExpression (reader : Reader) : Except SyntaxError Expr × Reader :=
  Read.run (Read.expression reader.budget 0) reader
    ((Read.adequate _).expression 0 reader (allows_budget reader (by decide)))

def readBlock (reader : Reader) : Except SyntaxError Block × Reader :=
  Read.run (Read.block reader.budget) reader
    ((Read.adequate _).block reader (allows_budget reader (by decide)))

def readFunction (reader : Reader) : Except SyntaxError FunctionDecl × Reader :=
  Read.run (Read.function reader.budget) reader
    (Read.leaves_function reader (allows_budget reader (by decide)))

def refuse (reader : Reader) (construct : Construct) : SyntaxError × Reader :=
  (reader.errorHere (.notYetSupported construct), reader)

def readProgram (reader : Reader) : Except SyntaxError Module × Reader :=
  Read.run (Read.program reader.budget) reader
    (Read.leaves_program reader (allows_budget reader (by decide)))

end Reader

def Module.ofSource (source : Source) : Except SyntaxError Module :=
  match Reader.ofSource source with
  | .ok reader => reader.readProgram.1
  | .error error => .error error

end ScalarLang
