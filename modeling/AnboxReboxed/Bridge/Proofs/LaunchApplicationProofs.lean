import AnboxReboxed.Bridge.LaunchApplication
import Mathlib.Data.List.Basic
import Mathlib.Data.List.TakeWhile

/-!
# Proofs: what `am` makes of a launch request

The service turns every message into arguments that `am` reads as the message says, as long as the component text is one
that `am` understands. What the stub leaves out of the message is lost.
-/

namespace AnboxReboxed.Bridge

open AnboxReboxed.Lib AnboxReboxed.Wm

theorem field_getD (text : String) : (field text).getD "" = text := by
  rw [field]
  split
  · rename_i h
    exact h.symm
  · rfl

namespace AmStart

theorem parse_bounds_text (r : Rect) : parse_bounds (bounds_text r) = some r := by
  have htext : (bounds_text r).toList =
      [' '].intercalate ([r.left, r.top, r.right, r.bottom].map fun i => (toString i).toList) := by
    rw [bounds_text]
    simp only [String.toList_append]
    simp only [List.map_cons, List.map_nil, List.intercalate, List.intersperse, List.flatten_cons, List.flatten_nil,
      List.append_assoc, List.append_nil]
    rfl
  rw [parse_bounds, htext, Decimal.parseFields_intercalate (List.cons_ne_nil _ _)]

/-! ## Options -/

variable {r : AmStart} {args : List String}

theorem parse_stack (stack : Option StackMessage) (hr : r.stack = none) :
    parse r (option "--stack" (stack.map fun s => toString s.number) ++ args) =
      parse { r with stack := stack.map StackMessage.number } args := by
  cases stack with
  | none =>
    rw [Option.map_none, Option.map_none, ← hr]
    rfl
  | some s =>
    show (Decimal.parse (toString s.number).toList).bind _ = _
    rw [Decimal.parse_toString]
    rfl

theorem parse_launch_bounds (bounds : Option Rect) (hr : r.launch_bounds = none) :
    parse r (option "--launch-bounds" (bounds.map bounds_text) ++ args) =
      parse { r with launch_bounds := bounds } args := by
  cases bounds with
  | none =>
    rw [Option.map_none, ← hr]
    rfl
  | some bounds =>
    show (parse_bounds (bounds_text bounds)).bind _ = _
    rw [parse_bounds_text]
    rfl

theorem parse_action (action : Option String) (hr : r.action = none) :
    parse r (option "-a" action ++ args) = parse { r with action } args := by
  cases action with
  | none =>
    show parse r args = _
    rw [← hr]
  | some action => rfl

theorem parse_uri (uri : Option String) (hr : r.uri = none) :
    parse r (option "-d" uri ++ args) = parse { r with uri } args := by
  cases uri with
  | none =>
    show parse r args = _
    rw [← hr]
  | some uri => rfl

theorem parse_type (type : Option String) (hr : r.type = none) :
    parse r (option "-t" type ++ args) = parse { r with type } args := by
  cases type with
  | none =>
    show parse r args = _
    rw [← hr]
  | some type => rfl

/-- What `am` reads from the arguments for a message. -/
theorem read_launch_application (m : LaunchApplication) :
    read (launch_application m) =
      parse
        { stack := m.stack.map StackMessage.number
          launch_bounds := m.launch_bounds
          action := m.intent.action
          uri := m.intent.uri
          type := m.intent.type }
        (if component_text m.intent ≠ "" then [component_text m.intent] else []) := by
  rw [read, launch_application]
  simp only [List.append_assoc]
  refine (if_pos rfl).trans ?_
  show parse {} ([] ++ _) = _
  rw [List.nil_append, parse_stack m.stack rfl, parse_launch_bounds m.launch_bounds rfl,
    parse_action m.intent.action rfl, parse_uri m.intent.uri rfl, parse_type m.intent.type rfl]

end AmStart

/-! ## The component -/

theorem component_text_launch (intent : Intent) (bounds : Rect) (stack : StackId) :
    component_text (launch intent bounds stack).intent =
      if intent.package = "" then "" else if intent.component = "" then intent.package
      else intent.package ++ "/" ++ intent.component := by
  simp only [component_text, launch, field_getD]
  by_cases hp : intent.package = ""
  · by_cases hc : intent.component = "" <;> simp [field, hp, hc]
  · by_cases hc : intent.component = "" <;> simp [field, hp, hc]

theorem slash_toList : "/".toList = ['/'] := rfl

theorem component_ne_empty {package : String} (hp : package ≠ "") (component : String) :
    package ++ "/" ++ component ≠ "" := by
  intro hempty
  have htext := congrArg String.toList hempty
  rw [String.toList_append, String.toList_append] at htext
  exact hp (String.toList_eq_nil_iff.mp (List.append_eq_nil_iff.mp (List.append_eq_nil_iff.mp htext).1).1)

theorem takeWhile_component {package : List Char} (h : '/' ∉ package) (component : List Char) :
    (package ++ '/' :: component).takeWhile (· ≠ '/') = package := by
  rw [List.takeWhile_append_of_pos]
  · rw [List.takeWhile_cons_of_neg (by decide), List.append_nil]
  · intro c hc
    exact decide_eq_true fun heq => h (heq ▸ hc)

theorem dropWhile_component {package : List Char} (h : '/' ∉ package) (component : List Char) :
    (package ++ '/' :: component).dropWhile (· ≠ '/') = '/' :: component := by
  rw [List.dropWhile_append_of_pos]
  · exact List.dropWhile_cons_of_neg (by decide)
  · intro c hc
    exact decide_eq_true fun heq => h (heq ▸ hc)

/-- Nothing before the first slash is one. -/
theorem not_mem_takeWhile (text : List Char) : '/' ∉ text.takeWhile (· ≠ '/') := by
  intro h
  exact absurd (List.mem_takeWhile_imp h) (by decide)

namespace AmStart

variable {r : AmStart} {intent : Intent} {bounds : Rect} {stack : StackId}

/-- What `am` reads for the argument behind the options, when there is one. -/
theorem parse_component (r : AmStart) (text : String) :
    parse r (if text ≠ "" then [text] else []) = if text = "" then some r else r.target text := by
  by_cases h : text = ""
  · rw [if_neg (not_not.mpr h), if_pos h]
    rfl
  · rw [if_pos h, if_neg h]
    rfl

theorem target_package {text : String} (hoption : text.toList.head? ≠ some '-') (hslash : '/' ∉ text.toList) :
    r.target text = some { r with package := text, component := "" } := by
  have hall : ∀ c ∈ text.toList, decide (c ≠ '/') = true := fun c hc => decide_eq_true fun heq => hslash (heq ▸ hc)
  rw [target, if_neg hoption, List.takeWhile_eq_self_iff.mpr hall, List.dropWhile_eq_nil_iff.mpr hall,
    String.ofList_toList]
  rfl

theorem target_component {package component : String} (hoption : package.toList.head? ≠ some '-')
    (hpackage : package ≠ "") (hslash : '/' ∉ package.toList) :
    r.target (package ++ "/" ++ component) = some { r with package, component } := by
  have htext : (package ++ "/" ++ component).toList = package.toList ++ '/' :: component.toList := by
    rw [String.toList_append, String.toList_append, slash_toList, List.append_assoc]
    rfl
  have hne : package.toList ≠ [] := fun h => hpackage (String.toList_eq_nil_iff.mp h)
  rw [target, htext, List.head?_append_of_ne_nil _ hne, if_neg hoption, takeWhile_component hslash,
    dropWhile_component hslash, List.tail_cons, String.ofList_toList, String.ofList_toList]

/-- A target that is read names a package that is none of an option's and has no slash in it. -/
theorem of_target {text : String} {r' : AmStart} (h : r.target text = some r') :
    text.toList.head? ≠ some '-' ∧ '/' ∉ r'.package.toList ∧ r'.launch_bounds = r.launch_bounds ∧
      r'.categories = r.categories := by
  rw [target] at h
  split_ifs at h with hoption
  cases Option.some.inj h
  refine ⟨hoption, ?_, rfl, rfl⟩
  rw [String.toList_ofList]
  exact not_mem_takeWhile _

/-- The request arrives as it was made exactly when it has no rectangle and no categories, and its package is plain. -/
theorem read_launch_iff (intent : Intent) (bounds : Rect) (stack : StackId) :
    read (launch_application (launch intent bounds stack)) = some (wanted intent bounds stack) ↔
      bounds = Rect.Invalid ∧ intent.categories = [] ∧ intent.Plain := by
  rw [read_launch_application, parse_component, component_text_launch]
  constructor
  · intro h
    have hfields : (wanted intent bounds stack).launch_bounds = (launch intent bounds stack).launch_bounds ∧
        (wanted intent bounds stack).categories = [] ∧ intent.Plain := by
      by_cases hp : intent.package = ""
      · rw [if_pos hp, if_pos rfl] at h
        have hw := (Option.some.inj h).symm
        refine ⟨congrArg launch_bounds hw, congrArg categories hw, ?_⟩
        have hc : intent.component = "" := congrArg component hw
        refine ⟨?_, ?_, fun hne => absurd hc hne⟩
        · rw [hp]
          decide
        · rw [hp]
          exact List.not_mem_nil
      · rw [if_neg hp] at h
        have htext :
            (if intent.component = "" then intent.package else intent.package ++ "/" ++ intent.component) ≠ "" := by
          split
          · exact hp
          · exact component_ne_empty hp _
        rw [if_neg htext] at h
        obtain ⟨hoption, hslash, hbounds, hcategories⟩ := of_target h
        refine ⟨hbounds, hcategories, ⟨?_, hslash, fun _ => hp⟩⟩
        have hne : intent.package.toList ≠ [] := fun hnil => hp (String.toList_eq_nil_iff.mp hnil)
        split at hoption
        · exact hoption
        · rw [String.toList_append, String.toList_append, List.append_assoc,
            List.head?_append_of_ne_nil _ hne] at hoption
          exact hoption
    obtain ⟨hbounds, hcategories, hplain⟩ := hfields
    refine ⟨?_, hcategories, hplain⟩
    by_contra hne
    rw [wanted, launch, if_neg hne, if_pos hne] at hbounds
    exact hne (Option.some.inj hbounds)
  · rintro ⟨rfl, hcategories, hplain⟩
    by_cases hp : intent.package = ""
    · have hc : intent.component = "" := by
        by_contra hc
        exact hplain.component hc hp
      rw [if_pos hp, if_pos rfl, wanted, hcategories, hp, hc]
      rfl
    · rw [if_neg hp]
      by_cases hc : intent.component = ""
      · rw [if_pos hc, if_neg hp, target_package hplain.option hplain.slash, wanted, hcategories, hc]
        rfl
      · rw [if_neg hc, if_neg (component_ne_empty hp _), target_component hplain.option hp hplain.slash, wanted,
          hcategories]
        rfl

/-- A window of the size 100 is asked for. -/
theorem not_always_read :
    ¬∀ (intent : Intent) (bounds : Rect) (stack : StackId),
      read (launch_application (launch intent bounds stack)) = some (wanted intent bounds stack) := by
  intro h
  have hbounds := congrArg (Option.map launch_bounds)
    (h { package := "a", component := "b" } ⟨0, 0, 100, 100⟩ .Freeform)
  rw [read_launch_application, parse_component, component_text_launch] at hbounds
  exact absurd hbounds (by decide)

end AmStart

end AnboxReboxed.Bridge
