import AnboxReboxed.Lib.Delimited

/-!
# Scripts of `init`

A script is read line by line. A backslash at the end of a line continues it, and what is then one line is a
statement. A service, an `on` or an `import` starts a section; the other statements belong to the section that they are
in, and of the labels of a service the last one counts. The lines carry tags, so that a reader of the result can tell
where they come from.
-/

namespace AnboxReboxed.Lib.InitScript

abbrev Line := List Char

def blank (c : Char) : Bool := c == ' ' || c == '\t'

/-- The line goes on in the next one. -/
def continues (line : Line) : Bool := line.getLast? == some '\\'

/-- The lines of a statement as one line. The blanks at the start of a continuation are dropped. -/
def joined : List Line → Line
  | [] => []
  | line :: lines => (if continues line then line.dropLast else line) ++ (joined lines).dropWhile blank

def words (text : Line) : List Line := Delimited.words blank text

inductive Kind where
  | service
  /-- Another section. -/
  | section
  | option
  deriving DecidableEq

/-- What a statement is, by its first word. -/
def kind (text : Line) : Kind :=
  let keyword := (words text).headD []
  if keyword = "service".toList then .service
  else if keyword = "on".toList ∨ keyword = "import".toList then .section
  else .option

/-- The label that an option sets. -/
def seclabel (text : Line) : Option Line :=
  match words text with
  | keyword :: label :: _ => if keyword = "seclabel".toList then some label else none
  | _ => none

/-- The lines of a statement. -/
abbrev Statement (τ : Type) := List (τ × Line)

def Statement.text {τ : Type} (statement : Statement τ) : Line := joined (statement.map Prod.snd)

/-- The same lines with other tags. -/
def Statement.retag {τ σ : Type} (f : τ → σ) (statement : Statement τ) : Statement σ := statement.map (Prod.map f id)

@[simp] theorem Statement.text_retag {τ σ : Type} (f : τ → σ) (statement : Statement τ) :
    (statement.retag f).text = statement.text := by
  simp [text, retag, Function.comp_def]

structure Service (τ : Type) where
  declaration : Statement τ
  options : List (Statement τ) := []
  deriving DecidableEq

namespace Service

variable {τ : Type}

def name (s : Service τ) : Option Line := (words s.declaration.text)[1]?

/-- The last label counts. -/
def label (s : Service τ) : Option Line := (s.options.filterMap fun o => seclabel o.text).getLast?

def addOption (s : Service τ) (option : Statement τ) : Service τ := { s with options := s.options ++ [option] }

end Service

/-- The reader between two lines. -/
structure Reader (τ : Type) where
  /-- The lines of a statement that goes on. -/
  pending : Statement τ := []
  /-- The latest statement that is complete. -/
  last : Statement τ := []
  /-- The latest service first. -/
  services : List (Service τ) := []
  /-- The section is a service, which is then the latest one. -/
  inService : Bool := false
  deriving DecidableEq

namespace Reader

variable {τ : Type}

/-- A statement is complete. -/
def take (r : Reader τ) (statement : Statement τ) : Reader τ :=
  let r := { r with pending := [], last := statement }
  match kind statement.text with
  | .service => { r with services := ⟨statement, []⟩ :: r.services, inService := true }
  | .section => { r with inService := false }
  | .option =>
    if r.inService then { r with services := r.services.modifyHead (Service.addOption · statement) } else r

def read (r : Reader τ) (line : τ × Line) : Reader τ :=
  if continues line.2 then { r with pending := r.pending ++ [line] } else r.take (r.pending ++ [line])

def readAll (r : Reader τ) (lines : List (τ × Line)) : Reader τ := lines.foldl read r

/-- At the end of the script. -/
def finish (r : Reader τ) : Reader τ := if r.pending = [] then r else r.take r.pending

/-- The declaration of a service has just ended. -/
def AtDeclaration (r : Reader τ) : Prop := r.pending = [] ∧ kind r.last.text = .service

instance (r : Reader τ) : Decidable r.AtDeclaration :=
  inferInstanceAs (Decidable (_ ∧ _))

section Take

variable {r : Reader τ} {statement : Statement τ}

theorem take_service (h : kind statement.text = .service) :
    r.take statement = ⟨[], statement, ⟨statement, []⟩ :: r.services, true⟩ := by
  simp only [take, h]

theorem take_section (h : kind statement.text = .section) :
    r.take statement = ⟨[], statement, r.services, false⟩ := by
  simp only [take, h]

theorem take_option (h : kind statement.text = .option) :
    r.take statement
      = ⟨[], statement,
          if r.inService then r.services.modifyHead (Service.addOption · statement) else r.services, r.inService⟩ := by
  simp only [take, h]
  split <;> rfl

theorem take_pending : (r.take statement).pending = [] := by
  cases h : kind statement.text <;> simp [take_service, take_section, take_option, h]

theorem take_last : (r.take statement).last = statement := by
  cases h : kind statement.text <;> simp [take_service, take_section, take_option, h]

theorem atDeclaration_take : (r.take statement).AtDeclaration ↔ kind statement.text = .service := by
  rw [AtDeclaration, take_pending, take_last]
  exact and_iff_right rfl

variable {line : τ × Line}

theorem read_continues (h : continues line.2 = true) : r.read line = { r with pending := r.pending ++ [line] } :=
  if_pos h

theorem read_complete (h : continues line.2 = false) : r.read line = r.take (r.pending ++ [line]) :=
  if_neg (Bool.eq_false_iff.1 h)

theorem not_atDeclaration_of_continues (h : continues line.2 = true) : ¬(r.read line).AtDeclaration := by
  rw [read_continues h]
  exact fun hdeclared => List.append_ne_nil_of_right_ne_nil _ (List.cons_ne_nil _ _) hdeclared.1

end Take

/-- Options of one line each, read in a service, are its next options. -/
theorem readAll_options {r : Reader τ} {service : Service τ} {services : List (Service τ)} {lines : List (τ × Line)}
    (hpending : r.pending = []) (hservice : r.inService = true) (hservices : r.services = service :: services)
    (hlines : ∀ line ∈ lines, continues line.2 = false ∧ kind line.2 = .option) :
    (r.readAll lines).pending = [] ∧ (r.readAll lines).inService = true ∧
      (r.readAll lines).services
        = { service with options := service.options ++ lines.map fun line => [line] } :: services := by
  induction lines generalizing r service with
  | nil => simpa [readAll] using ⟨hpending, hservice, hservices⟩
  | cons line lines ih =>
    obtain ⟨hline, hkind⟩ := hlines line List.mem_cons_self
    have htext : Statement.text [line] = line.2 := by simp [Statement.text, joined, hline]
    have hread : r.read line = ⟨[], [line], service.addOption [line] :: services, true⟩ := by
      rw [read_complete hline, hpending, List.nil_append, take_option (htext.symm ▸ hkind), hservice, hservices]
      rfl
    have hrest := ih (r := r.read line) (by rw [hread]) (by rw [hread]) (by rw [hread])
      fun l hl => hlines l (List.mem_cons_of_mem _ hl)
    have happend : (service.addOption [line]).options ++ lines.map (fun l => [l])
        = service.options ++ (line :: lines).map fun l => [l] := by
      simp [Service.addOption]
    rw [happend] at hrest
    exact hrest

end Reader

end AnboxReboxed.Lib.InitScript
