import TimelineExport.Engine.Command

/-!
# The inputs of a command

The engine reads its arguments from left to right. Some options stand alone; every other option
takes the next argument as its value, whatever that looks like; what is neither is an output. The
inputs are the values of `-i` (`inputPaths`), and a filter program refers to them by their numbers.

Each input of a program brings options of its own, and not every input equally many. They are read
back in the order of the program all the same (`inputPaths_engineCommand`), so an input has the
same number on both sides.
-/

namespace TimelineExport

/-! ### Reading arguments -/

/-- The options that take no value. -/
def loneOptions : List String := ["-y", "-hide_banner", "-nostdin", "-nostats"]

/-- Whether an argument is an option: a dash, and something after it. -/
def isOption (argument : String) : Bool :=
  match argument.toList with
  | '-' :: _ :: _ => true
  | _ => false

/-- Whether an argument takes the next one as its value. -/
def takesValue (argument : String) : Bool :=
  isOption argument && !loneOptions.contains argument

/-- The values of the options `-i` in a list of arguments. -/
def inputPaths : List String → List String
  | [] | [_] => []
  | argument :: value :: rest =>
    if takesValue argument then
      if argument = "-i" then value :: inputPaths rest else inputPaths rest
    else inputPaths (value :: rest)

theorem inputPaths_lone {argument : String} (h : takesValue argument = false)
    (rest : List String) : inputPaths (argument :: rest) = inputPaths rest := by
  cases rest with
  | nil => rfl
  | cons value rest => simp [inputPaths, h]

theorem inputPaths_option {argument : String} (h : takesValue argument = true)
    (hne : argument ≠ "-i") (value : String) (rest : List String) :
    inputPaths (argument :: value :: rest) = inputPaths rest := by
  simp [inputPaths, h, hne]

theorem inputPaths_input (path : String) (rest : List String) :
    inputPaths ("-i" :: path :: rest) = path :: inputPaths rest := by
  simp [inputPaths, show takesValue "-i" = true by decide]

/-! ### The inputs of a program -/

namespace Input

/-- What an input plays: a file, the description of a generated stream, or the pattern of the names
of pictures. -/
def path : Input Float → String
  | file path => path
  | generated source => renderFormula source
  | pictures pattern _ => pattern

/-- Whatever options come before it, an input is read as what it plays. -/
theorem inputPaths_arguments (i : Input Float) (rest : List String) :
    inputPaths (i.arguments ++ rest) = i.path :: inputPaths rest := by
  cases i with
  | file path => exact inputPaths_input path rest
  | generated source =>
    change inputPaths ("-f" :: "lavfi" :: "-i" :: renderFormula source :: rest) = _
    rw [inputPaths_option (by decide) (by decide), inputPaths_input]
    rfl
  | pictures pattern fps =>
    change inputPaths ("-framerate" :: toString fps :: "-start_number" :: "0" :: "-f" ::
      "image2" :: "-i" :: pattern :: rest) = _
    rw [inputPaths_option (by decide) (by decide), inputPaths_option (by decide) (by decide),
      inputPaths_option (by decide) (by decide), inputPaths_input]
    rfl

end Input

/-- The inputs are read in their order. -/
theorem inputPaths_flatMap_arguments (inputs : List (Input Float)) (rest : List String) :
    inputPaths (inputs.flatMap Input.arguments ++ rest) =
      inputs.map Input.path ++ inputPaths rest := by
  induction inputs with
  | nil => rfl
  | cons i inputs ih =>
    rw [List.flatMap_cons, List.append_assoc, i.inputPaths_arguments, ih, List.map_cons,
      List.cons_append]

/-- **The inputs on a command are those of the program**, in the order of their numbers. -/
theorem inputPaths_engineCommand (service : ServiceSettings) (settings : ExportSettings)
    (program : Program Float) (output : String) :
    inputPaths (engineCommand service settings program output).tail =
      program.inputs.map Input.path := by
  have hlast : inputPaths [output] = [] := rfl
  -- every argument of the command's own stands alone or has its value, and none is an input
  simp (disch := decide) only [engineCommand, List.cons_append, List.nil_append, List.tail_cons,
    inputPaths_lone, inputPaths_option, inputPaths_flatMap_arguments, hlast, List.append_nil]

end TimelineExport
