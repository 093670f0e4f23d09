import QueryTemplate.CommandLine.Run
import QueryTemplate.Proofs.Splitting

/-!
# The lines of a shell session

Nothing is kept from one line of a session to the next: neither what was asked nor what went wrong. So what a
session writes is put together from what is written for each line (`exchange`), on each of the two streams.

* **`respond_eq_none_iff`**: a line ends the session exactly if it is one of two commands.
* **`transcript_cons_of_stays`**: any other line is answered, and the session goes on as if it began there.
* **`linesOf_unlines_append`**: lines that are written one after the other are read one after the other.
* **`lines_are_answered_apart`**: the whole session, and the run of the program around it.
-/

namespace QueryTemplate.CommandLine

/-! ## Outputs one after the other -/

namespace Output

theorem append_assoc (a b c : Output) : a ++ b ++ c = a ++ (b ++ c) := by
  show Output.mk (a.stdout ++ b.stdout ++ c.stdout) (a.stderr ++ b.stderr ++ c.stderr) = _
  rw [String.append_assoc, String.append_assoc]
  rfl

theorem empty_append (a : Output) : ({} : Output) ++ a = a := by
  show Output.mk ("" ++ a.stdout) ("" ++ a.stderr) = a
  rw [String.empty_append, String.empty_append]

end Output

/-! ## One line -/

/-- The line asks the shell to end. -/
def Leaves (line : String) : Prop :=
  Text.trim line = ".exit" ∨ Text.trim line = ".quit"

instance (line : String) : Decidable (Leaves line) :=
  inferInstanceAs (Decidable (_ ∨ _))

/-- What is written for a line: the prompt in front of it, and the answer to it. -/
def exchange (d : Definition) (base : Criteria) (line : String) : Output :=
  prompt ++ (respond d base line).getD farewell

variable {d : Definition} {base : Criteria}

theorem ofLine_eq_exit_iff {line : String} : Request.ofLine line = .exit ↔ Leaves line := by
  unfold Request.ofLine Leaves
  generalize Text.trim line = text
  dsimp only
  by_cases hleaves : text = ".exit" ∨ text = ".quit"
  · -- both words start with a point
    have hpoint : text ≠ "" ∧ text.toList.head? = some '.' := by
      rcases hleaves with h | h <;> rw [h] <;> decide
    simp [hleaves, hpoint]
  · simp only [hleaves, if_false, iff_false]
    repeat' split
    all_goals nofun

/-- **Only a line that asks for it ends the session**, in particular no error does. -/
theorem respond_eq_none_iff {line : String} : respond d base line = none ↔ Leaves line := by
  rw [← ofLine_eq_exit_iff]
  unfold respond
  cases Request.ofLine line <;> simp

/-- Filter text is compiled with the request that the shell was started with. -/
theorem exchange_filter {line : String} (hline : Text.trim line ≠ "")
    (hpoint : (Text.trim line).toList.head? ≠ some '.') :
    exchange d base line = prompt ++
      match d.compile { base with conditions := base.conditions ++ [.text (Text.trim line)] } with
      | .ok q => { stdout := q.sql ++ "\n" ++ "-- params: " ++ q.paramsJson ++ "\n" }
      | .error e => { stderr := "Error: " ++ e.message ++ "\n" } := by
  have hrequest : Request.ofLine line = .filter (Text.trim line) := by
    unfold Request.ofLine
    rw [if_neg hline, if_pos hpoint]
  have happly : base.apply (.whereText (Text.trim line))
      = .ok { base with conditions := base.conditions ++ [.text (Text.trim line)] } := rfl
  unfold exchange respond
  rw [hrequest]
  show prompt ++ filterOutput d base (Text.trim line) = _
  unfold filterOutput
  rw [happly]
  show prompt ++ (match d.compile _ with | .ok q => queryOutput q | .error e => _) = _
  cases d.compile { base with conditions := base.conditions ++ [.text (Text.trim line)] } with
  | ok q =>
    have hlines : queryOutput q = { stdout := q.sql ++ "\n" ++ "-- params: " ++ q.paramsJson ++ "\n" } := by
      simp only [queryOutput, Output.ofLines, List.map_cons, List.map_nil, String.join_cons,
        String.join_nil, String.append_empty, String.append_assoc]
    exact congrArg (prompt ++ ·) hlines
  | error e => rfl

/-! ## Sessions -/

/-- What is written for lines, one after the other on each of the two streams. -/
def exchanges (d : Definition) (base : Criteria) (lines : List String) : Output where
  stdout := String.join (lines.map fun line => (exchange d base line).stdout)
  stderr := String.join (lines.map fun line => (exchange d base line).stderr)

theorem exchanges_nil : exchanges d base [] = {} := rfl

theorem exchanges_cons (line : String) (rest : List String) :
    exchanges d base (line :: rest) = exchange d base line ++ exchanges d base rest := by
  unfold exchanges
  rw [List.map_cons, List.map_cons, String.join_cons, String.join_cons]
  rfl

theorem transcript_cons_of_stays {line : String} (h : ¬Leaves line) (rest : List String) :
    transcript d base (line :: rest) = exchange d base line ++ transcript d base rest := by
  rw [transcript, exchange]
  cases hrespond : respond d base line with
  | none => exact absurd (respond_eq_none_iff.1 hrespond) h
  | some answer => rfl

theorem transcript_cons_of_leaves {line : String} (h : Leaves line) (rest : List String) :
    transcript d base (line :: rest) = prompt ++ farewell := by
  unfold transcript
  rw [respond_eq_none_iff.2 h]

/-- **A session is the answers to its lines, one after the other.** Induction on the lines. -/
theorem transcript_append {first : List String} (h : ∀ line ∈ first, ¬Leaves line)
    (second : List String) :
    transcript d base (first ++ second) = exchanges d base first ++ transcript d base second := by
  induction first with
  | nil =>
    rw [exchanges_nil, Output.empty_append]
    rfl
  | cons line first ih =>
    have hmore := ih fun l hl => h l (List.mem_cons_of_mem line hl)
    rw [List.cons_append, transcript_cons_of_stays (h line List.mem_cons_self), hmore,
      exchanges_cons, Output.append_assoc]

/-! ## The input of a run -/

/-- The text of lines, each of which is ended. -/
def unlines (lines : List String) : String :=
  String.join (lines.map (· ++ "\n"))

theorem linesOf_append {line : String} (h : '\n' ∉ line.toList) (text : String) :
    linesOf (line ++ "\n" ++ text) = line :: linesOf text := by
  have hend : decide ('\n' = '\n') = true := rfl
  have hline : Text.splitWhen (· = '\n') line.toList = [line.toList] :=
    Text.splitWhen_of_not fun c hc => decide_eq_false fun hcn => h (hcn ▸ hc)
  have hcut : Text.splitWhen (· = '\n') (line ++ "\n" ++ text).toList
      = line.toList :: Text.splitWhen (· = '\n') text.toList := by
    have htext : (line ++ "\n" ++ text).toList = line.toList ++ '\n' :: text.toList := by simp
    rw [htext, Text.splitWhen_append hend, hline]
    rfl
  unfold linesOf
  rw [hcut]
  -- the segments of the text are some, so the last of all is the last of them
  cases hmore : Text.splitWhen (· = '\n') text.toList with
  | nil => exact absurd hmore (Text.splitWhen_ne_nil text.toList)
  | cons s segments =>
    show (if (s :: segments).getLast? = some [] then line.toList :: (s :: segments).dropLast
      else line.toList :: s :: segments).map String.ofList
      = line :: (if (s :: segments).getLast? = some [] then (s :: segments).dropLast
        else s :: segments).map String.ofList
    split
    · rw [List.map_cons, String.ofList_toList]
    · rw [List.map_cons, String.ofList_toList]

theorem linesOf_unlines_append {lines : List String} (h : ∀ line ∈ lines, '\n' ∉ line.toList)
    (text : String) : linesOf (unlines lines ++ text) = lines ++ linesOf text := by
  induction lines with
  | nil => rw [unlines, List.map_nil, String.join_nil, String.empty_append, List.nil_append]
  | cons line lines ih =>
    have hmore := ih fun l hl => h l (List.mem_cons_of_mem line hl)
    have hfront : unlines (line :: lines) ++ text = line ++ "\n" ++ (unlines lines ++ text) := by
      unfold unlines
      rw [List.map_cons, String.join_cons, String.append_assoc]
    rw [hfront, linesOf_append (h line List.mem_cons_self), hmore, List.cons_append]

theorem run_of_plan {arguments : List String} {load : String → Except String String}
    {opening : Output} (h : plan arguments load = .shell opening d base) (input : String) :
    run arguments load input = ⟨0, opening ++ transcript d base (linesOf input)⟩ := by
  unfold run
  rw [h]
  rfl

/-- **The lines of a session are answered apart from each other.** For lines of which none asks the shell to
end, in front of any others:

* what is written is what is written for each of them, one after the other, and then what a session of the
  others writes; if there are none, only the prompt is left to write;
* what comes behind a line that asks the shell to end makes no difference;
* what is written for filter text is what compiling it with the request of the command line gives, and an
  error goes to the other stream;
* a run that starts the shell succeeds, with just that after its opening. -/
theorem lines_are_answered_apart (d : Definition) (base : Criteria) {first : List String}
    (hfirst : ∀ line ∈ first, ¬Leaves line) :
    (∀ second, transcript d base (first ++ second)
        = exchanges d base first ++ transcript d base second)
      ∧ transcript d base first = exchanges d base first ++ prompt
      ∧ (∀ last second, Leaves last → transcript d base (first ++ last :: second)
          = exchanges d base first ++ (prompt ++ farewell))
      ∧ (∀ line, Text.trim line ≠ "" → (Text.trim line).toList.head? ≠ some '.' →
          exchange d base line = prompt ++
            match d.compile { base with conditions := base.conditions ++ [.text (Text.trim line)] } with
            | .ok q => { stdout := q.sql ++ "\n" ++ "-- params: " ++ q.paramsJson ++ "\n" }
            | .error e => { stderr := "Error: " ++ e.message ++ "\n" })
      ∧ ∀ arguments load opening, plan arguments load = .shell opening d base →
          (∀ line ∈ first, '\n' ∉ line.toList) → ∀ text,
          run arguments load (unlines first ++ text)
            = ⟨0, opening ++ (exchanges d base first ++ transcript d base (linesOf text))⟩ := by
  refine ⟨fun second => transcript_append hfirst second, ?_, ?_, ?_, ?_⟩
  · have hend : transcript d base (first ++ []) = exchanges d base first ++ prompt := transcript_append hfirst []
    rwa [List.append_nil] at hend
  · intro last second hlast
    rw [transcript_append hfirst, transcript_cons_of_leaves hlast]
  · intro line hline hpoint
    exact exchange_filter hline hpoint
  · intro arguments load opening hplan hlines text
    rw [run_of_plan hplan, linesOf_unlines_append hlines, transcript_append hfirst]

/-- What is written for lines by the shell that a run starts, if it starts one. -/
def Plan.exchanges? (lines : List String) : Plan → Option Output
  | .finish _ => none
  | .shell _ d base => some (exchanges d base lines)

/-- A blank line, filter text that compiles, filter text that does not and a command that there is not, and
then the end of the session, with a line behind it. -/
theorem lines_are_answered_apart_faulty :
    let arguments := ["--sql", "SELECT p.age AS age_int FROM people p", "-i", "-p", "min=18"]
    let load : String → Except String String := fun _ => .error "no file"
    let first := ["", "age > :min", "height = 1", ".quit now"]
    let written : Output :=
      ⟨"rustyquery> rustyquery> SELECT p.age AS age\nFROM people AS p\nWHERE p.age > ?\nLIMIT 50 OFFSET 0\n"
        ++ "-- params: [18]\nrustyquery> rustyquery> Unknown command: .quit now\nType '.help' for help\n",
        "Error: unknown field: height\n"⟩
    ∃ opening d base, plan arguments load = .shell opening d base
      ∧ (∀ line ∈ first, ¬Leaves line ∧ '\n' ∉ line.toList) ∧ Leaves " .exit"
      ∧ exchanges d base first = written
      ∧ run arguments load (unlines first ++ " .exit\nage < 1\n")
        = ⟨0, opening ++ (written ++ ⟨"rustyquery> Goodbye!\n", ""⟩)⟩ := by
  intro arguments load first written
  have hplan : (plan arguments load).exchanges? first = some written := by
    decide +kernel
  have hlines : ∀ line ∈ first, ¬Leaves line ∧ '\n' ∉ line.toList := by
    decide +kernel
  have hleaves : Leaves " .exit" := by
    decide +kernel
  have hrest : linesOf " .exit\nage < 1\n" = [" .exit", "age < 1"] := by
    decide +kernel
  cases hshell : plan arguments load with
  | finish outcome =>
    rw [hshell] at hplan
    cases hplan
  | shell opening d base =>
    rw [hshell] at hplan
    have hwritten : exchanges d base first = written := Option.some.inj hplan
    have hsession := lines_are_answered_apart d base fun line hline => (hlines line hline).1
    have hrun := hsession.2.2.2.2 arguments load opening hshell (fun line hline => (hlines line hline).2)
      " .exit\nage < 1\n"
    rw [hrest, transcript_cons_of_leaves hleaves, hwritten] at hrun
    exact ⟨opening, d, base, rfl, hlines, hleaves, hwritten, hrun⟩

end QueryTemplate.CommandLine
