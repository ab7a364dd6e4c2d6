import Catena.Main.Toolkit
import Catena.Proofs.Text

/-!
# Command lines that give programs only

A command line that gives programs by the option `-c`, and nothing else, evaluates these
programs in a fresh session and writes the stack, unless one of them fails
(`CommandLine.run_commands`). No file is opened, and the console does not follow.

This rests on what a toolkit is documented to do (`CommandLine.Toolkit.Documented`), and on
nothing else of a toolkit. The toolkit of the program does it (`Main.documented_toolkit`), on
a terminal and elsewhere.
-/

set_option autoImplicit false

namespace Catena

namespace CommandLine

/-- The arguments that give programs, each by an option of its own. -/
def commands (programs : List String) : List String :=
  programs.flatMap fun program => ["-c", program]

/-- A message is written as it is where a terminal reads it. Elsewhere it is if it does not
hold the escape character. -/
def Verbatim (terminal : Stream → Bool) (stream : Stream) (message : String) : Prop :=
  terminal stream = true ∨ escapeChar ∉ message.toList

/-- What precedes a message without the escape character makes no difference. -/
theorem Verbatim.append {terminal : Stream → Bool} {stream : Stream} {front message : String}
    (h : Verbatim terminal stream message) (hfront : escapeChar ∉ front.toList) :
    Verbatim terminal stream (front ++ message) := by
  refine h.imp_right fun hmessage => ?_
  rw [String.toList_append, List.mem_append, not_or]
  exact ⟨hfront, hmessage⟩

/-- What a toolkit is documented to do. `terminal` tells which streams a terminal reads. -/
structure Toolkit.Documented (t : Toolkit) (terminal : Stream → Bool) : Prop where
  /-- The option `-c` takes the argument after it for a program, whatever it is, and it may be
  repeated. The programs come in the order of the arguments. -/
  invoke_commands : ∀ programs, ∃ input,
    t.invoke (commands programs) = .call ⟨programs, [], false, 0⟩ input
  /-- A message is followed by a line feed. Only what begins with the escape character is
  dropped, and only where no terminal reads it. -/
  echo_verbatim : ∀ stream message, Verbatim terminal stream message →
    t.echo stream message = message ++ "\n"

/-! ## Reports -/

namespace Report

variable (r : Report)

theorem warn_warn (a b : String) : (r.warn a).warn b = r.warn (a ++ b) := by
  simp [warn, String.append_assoc]

/-- The log is written line by line. -/
theorem log_eq (records : List Record) :
    r.log records = r.warn (Text.ofLines (records.map Record.line)) := by
  rw [log, Text.ofLines, List.map_map]
  rfl

@[simp] theorem log_nil : r.log [] = r := by
  simp [log, warn]

theorem log_append (records more : List Record) :
    r.log (records ++ more) = (r.log records).log more := by
  rw [log_eq, log_eq, log_eq, warn_warn, List.map_append, Text.ofLines_append]

end Report

/-! ## Whole runs -/

/-- The bounds under which the programs of a command line are evaluated. -/
def boundsOf (around : Surroundings) (limit : Nat) : Bounds :=
  ⟨limit, around.fuel, threshold around.environment 0⟩

/-- A command line that gives programs evaluates them, and it writes the stack if they
succeed. -/
theorem run_commands {t : Toolkit} {terminal : Stream → Bool} {around : Surroundings}
    {limit : Nat} {programs : List String} (ht : t.Documented terminal)
    (hlimit : Settings.raiseLimit around.limit around.environment = .ok limit)
    (hprograms : programs ≠ []) :
    run t around (commands programs) =
      (runPrograms t (boundsOf around limit) programs Session.fresh .start).map fun result =>
        match result.2 with
        | none => result.1
        | some s => writeStack t (boundsOf around limit) s result.1 := by
  obtain ⟨input, hinvoke⟩ := ht.invoke_commands programs
  have hempty : programs.isEmpty = false := by simpa using hprograms
  simp only [run, begin, hinvoke, List.append_nil, runOptions, hlimit, hempty,
    Bool.false_eq_true, if_false, Bool.or_false, Bool.and_false, boundsOf]
  cases runPrograms t ⟨limit, around.fuel, threshold around.environment 0⟩ programs
    Session.fresh .start with
  | none => rfl
  | some result =>
      obtain ⟨r, session⟩ := result
      cases session with
      | none => rfl
      | some s => rfl

end CommandLine

/-! ## The toolkit of the program -/

namespace Main

open CommandLine (commands escapeChar)

/-- Each option adds its program to those given before. -/
theorem readArguments_commands (programs : List String) (o : Arguments) :
    readArguments none (commands programs) o =
      .ok { o with commands := o.commands ++ programs } := by
  induction programs generalizing o with
  | nil => simp [commands, readArguments]
  | cons program programs ih =>
      have hoption : readArgument "-c" o = .ok (.value "-c" o) := rfl
      have hcons : commands (program :: programs) = "-c" :: program :: commands programs := rfl
      -- the option asks for a value, and the next argument is taken for it as it stands
      rw [hcons, readArguments]
      simp only [hoption, readArguments]
      rw [ih]
      simp

/-- A control sequence begins with the escape character. -/
theorem sequence?_of_ne {c : Char} (h : c ≠ escapeChar) (text : List Char) :
    sequence? (c :: text) = none := by
  unfold sequence?
  split
  · rename_i d rest heq
    cases heq
    exact if_neg h
  · rfl

/-- Characters other than the escape character are kept. -/
theorem plainFrom_of_not_mem {text : List Char} (h : escapeChar ∉ text) (done : List Char) :
    plainFrom 0 text done = done.reverse ++ text := by
  induction text generalizing done with
  | nil => simp [plainFrom]
  | cons c text ih =>
      rw [List.mem_cons, not_or] at h
      rw [plainFrom, sequence?_of_ne (Ne.symm h.1)]
      simp only
      rw [ih h.2, List.reverse_cons, List.append_assoc, List.singleton_append]

theorem plain_of_not_mem {text : String} (h : escapeChar ∉ text.toList) : plain text = text := by
  rw [plain, plainFrom_of_not_mem h]
  exact String.ofList_toList

/-- The toolkit of the program does what a toolkit is documented to do. -/
theorem documented_toolkit (outside : Outside) :
    (toolkit outside).Documented outside.terminal where
  invoke_commands := by
    intro programs
    refine ⟨outside.input, ?_⟩
    have hread : Arguments.ofList (commands programs) = .ok ⟨programs, [], false, 0, false⟩ := by
      rw [Arguments.ofList, readArguments_commands]
      rfl
    simp only [toolkit, invoke, hread, Bool.false_eq_true, if_false, readFiles]
  echo_verbatim := by
    rintro stream message (hterminal | hplain)
    · -- on a terminal nothing is dropped
      simp only [toolkit, echo, hterminal, if_true]
    · -- elsewhere only what begins with the escape character is, and the line feed does not
      have hline : escapeChar ∉ (message ++ "\n").toList := by
        have hfeed : escapeChar ∉ "\n".toList := by decide
        rw [String.toList_append, List.mem_append, not_or]
        exact ⟨hplain, hfeed⟩
      simp only [toolkit, echo, plain_of_not_mem hline, ite_self]

end Main

end Catena
