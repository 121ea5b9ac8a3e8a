import AnboxReboxed.Lib.Proofs.OrdMapProofs
import AnboxReboxed.Qemu.GsmMessageProcessor
import Mathlib.Data.List.Induction

/-!
# Proofs: AT commands

The scan of a buffer finds its lines, so what is kept of it can be put in front of the next chunk. For each
line the table is asked for the first of its commands that fits.
-/

namespace AnboxReboxed.Qemu

open AnboxReboxed.Lib

namespace AtParser

variable {η : Type}

/-! ## Lines -/

/-- The scan from `pos` on, when there is no end of a line between `bytes_processed` and `pos`. -/
theorem scan_spec {data : Bytes} {pos bytes_processed : Nat} (hle : bytes_processed ≤ pos) (hpos : pos ≤ data.length)
    (hline : ∀ byte ∈ (data.drop bytes_processed).take (pos - bytes_processed), isEol byte = false) :
    (scan data pos bytes_processed).1 = Delimited.complete isEol (data.drop bytes_processed) ∧
    data.drop (scan data pos bytes_processed).2 = Delimited.rest isEol (data.drop bytes_processed) := by
  fun_induction scan data pos bytes_processed with
  | case1 pos bytes_processed h heol command commands processed hscan ih =>
    -- the line ends here
    have hnext : bytes_processed + (pos - bytes_processed) + 1 = pos + 1 := by omega
    have hcut : data.drop bytes_processed = command ++ data[pos] :: data.drop (pos + 1) := by
      rw [← List.drop_eq_getElem_cons h, ← List.take_append_drop (pos - bytes_processed) (data.drop bytes_processed),
        List.drop_drop, Nat.add_sub_of_le hle]
    obtain ⟨hcommands, hprocessed⟩ := ih (by omega) (by omega) (by
      rw [hnext, Nat.sub_self, List.take_zero]
      exact fun byte hb => absurd hb List.not_mem_nil)
    rw [hscan, hnext] at hcommands hprocessed
    rw [hcut, Delimited.complete_cut heol, Delimited.rest_cut heol, Delimited.complete_of_none hline,
      Delimited.rest_of_none hline, List.nil_append]
    exact ⟨congrArg _ hcommands, hprocessed⟩
  | case2 pos bytes_processed h heol ih =>
    refine ih (by omega) (by omega) fun byte hb => ?_
    have hlen : pos + 1 - bytes_processed = pos - bytes_processed + 1 := by omega
    have hget : (data.drop bytes_processed)[pos - bytes_processed]? = some data[pos] := by
      rw [List.getElem?_drop, Nat.add_sub_of_le hle]
      exact List.getElem?_eq_getElem h
    rw [hlen, List.take_add_one, hget, Option.toList_some, List.mem_append, List.mem_singleton] at hb
    rcases hb with hb | rfl
    · exact hline byte hb
    · exact Bool.eq_false_iff.mpr heol
  | case3 pos bytes_processed h =>
    have hall : ∀ byte ∈ data.drop bytes_processed, isEol byte = false := by
      rwa [List.take_of_length_le (by rw [List.length_drop]; omega)] at hline
    rw [Delimited.complete_of_none hall, Delimited.rest_of_none hall]
    exact ⟨rfl, rfl⟩

/-! ## The table -/

section Table

variable {p : AtParser η} {command real_command : Bytes} {handler : η}

theorem entries_find?_prefix {m : OrdMap Bytes (Option η)} {e : Bytes × Option η} :
    m.entries.find? (fun e => e.1.isPrefixOf real_command) = some e ↔
      m.find? e.1 = some e.2 ∧ e.1 <+: real_command ∧ ∀ key ∈ m, key <+: real_command → e.1 ≤ key := by
  simp only [← List.isPrefixOf_iff_prefix]
  exact OrdMap.entries_find?_eq_some_iff (p := fun key : Bytes => key.isPrefixOf real_command)

/-- The commands of a line are looked for in the order of the table. -/
theorem findHandler_eq_some_iff :
    p.findHandler real_command = some handler ↔ p.IsFirstHandler real_command handler := by
  unfold findHandler IsFirstHandler
  rw [Option.bind_eq_some_iff]
  constructor
  · rintro ⟨⟨key, value⟩, hfind, hvalue⟩
    obtain ⟨hkey, hpre, hleast⟩ := entries_find?_prefix.mp hfind
    dsimp only at hkey hpre hleast hvalue
    exact ⟨key, by rw [hkey, hvalue], hpre, hleast⟩
  · rintro ⟨key, hkey, hpre, hleast⟩
    exact ⟨(key, some handler), entries_find?_prefix.mpr ⟨hkey, hpre, hleast⟩, rfl⟩

/-- A handler is run for `AT` and what the table knows. -/
theorem processs_command_eq_some_iff : p.processs_command command = some (handler, real_command) ↔
    command = ascii "AT" ++ real_command ∧ p.IsFirstHandler real_command handler := by
  unfold processs_command
  split_ifs with hat
  · obtain ⟨rest, rfl⟩ := List.isPrefixOf_iff_prefix.mp hat
    have hdrop : (ascii "AT" ++ rest).drop 2 = rest := rfl
    dsimp only
    rw [hdrop, Option.map_eq_some_iff, List.append_cancel_left_eq]
    constructor
    · rintro ⟨handler', hfind, heq⟩
      cases heq
      exact ⟨rfl, findHandler_eq_some_iff.mp hfind⟩
    · rintro ⟨rfl, hfirst⟩
      exact ⟨handler, findHandler_eq_some_iff.mpr hfirst, rfl⟩
  · refine iff_of_false (fun h => by cases h) ?_
    rintro ⟨rfl, -⟩
    exact hat (List.isPrefixOf_iff_prefix.mpr (List.prefix_append _ _))

/-- A table without empty handlers runs one whenever a command fits. -/
theorem findHandler_isSome (hfull : ∀ key, p.handlers_.find? key ≠ some none) :
    (∃ handler, p.findHandler real_command = some handler) ↔ ∃ key ∈ p.handlers_, key <+: real_command := by
  constructor
  · rintro ⟨handler, h⟩
    obtain ⟨key, hkey, hpre, -⟩ := findHandler_eq_some_iff.mp h
    exact ⟨key, OrdMap.mem_of_find? hkey, hpre⟩
  · rintro ⟨key, hkey, hpre⟩
    unfold findHandler
    cases hfind : p.handlers_.entries.find? fun e => e.1.isPrefixOf real_command with
    | none =>
      obtain ⟨value, hvalue⟩ := OrdMap.mem_iff.mp hkey
      have hno := List.find?_eq_none.mp hfind _ (OrdMap.find?_eq_some_iff.mp hvalue)
      exact absurd (List.isPrefixOf_iff_prefix.mpr hpre) hno
    | some e =>
      obtain ⟨he, -, -⟩ := entries_find?_prefix.mp hfind
      cases hvalue : e.2 with
      | none => exact absurd (he.trans (by rw [hvalue])) (hfull e.1)
      | some handler => exact ⟨handler, hvalue⟩

/-- A command that is there already keeps its handler. -/
theorem register_command_find? (p : AtParser η) (command : Bytes) (h : Option η) (key : Bytes) :
    (p.register_command command h).handlers_.find? key =
      if key = command ∧ command ∉ p.handlers_ then some h else p.handlers_.find? key := by
  unfold register_command
  split_ifs with hmem hkey hkey
  · exact absurd hmem hkey.2
  · rfl
  · rw [hkey.1]
    exact OrdMap.find?_insert_self _ _ _
  · exact OrdMap.find?_insert_ne _ _ fun heq => hkey ⟨heq, hmem⟩

/-- The table after several registrations: the first one of a command counts. -/
theorem registered_find? (l : List (Bytes × η)) (p : AtParser η) (key : Bytes) :
    (l.foldl (fun p c => p.register_command c.1 (some c.2)) p).handlers_.find? key =
      (p.handlers_.find? key).or ((l.lookup key).map some) := by
  induction l generalizing p with
  | nil => rw [List.foldl_nil, List.lookup_nil, Option.map_none, Option.or_none]
  | cons c l ih =>
    obtain ⟨command, h⟩ := c
    rw [List.foldl_cons, ih, register_command_find?]
    by_cases hkey : key = command
    · subst hkey
      rw [List.lookup_cons_self]
      by_cases hmem : key ∈ p.handlers_
      · obtain ⟨v, hv⟩ := OrdMap.mem_iff.mp hmem
        rw [if_neg fun hno => hno.2 hmem, hv]
        rfl
      · rw [if_pos ⟨rfl, hmem⟩, OrdMap.not_mem_iff.mp hmem]
        rfl
    · have hbeq : (key == command) = false := beq_eq_false_iff_ne.mpr hkey
      rw [if_neg fun hno => hkey hno.1, List.lookup_cons, hbeq]

end Table

end AtParser

namespace GsmMessageProcessor

/-! ## The modem -/

theorem parser_find? (key : Bytes) : parser_.handlers_.find? key = (commands.lookup key).map some := by
  unfold parser_
  rw [AtParser.registered_find?]
  rfl

theorem mem_parser_iff {key : Bytes} : key ∈ parser_.handlers_ ↔ key ∈ commands.map Prod.fst := by
  have hlookup : (commands.lookup key).isSome ↔ key ∈ commands.map Prod.fst := by
    rw [List.lookup_isSome_iff, List.mem_map]
    simp only [beq_iff_eq]
    exact exists_congr fun e => and_congr_right fun _ => eq_comm
  show (parser_.handlers_.find? key).isSome = true ↔ _
  rw [parser_find?, Option.isSome_map]
  exact hlookup

/-- A handler is run exactly for the lines that are `AT` and one of the commands, with or without more. -/
theorem dispatches_iff (line : Bytes) : (parser_.processs_command line).isSome ↔
    ∃ command ∈ commands.map Prod.fst, ascii "AT" ++ command <+: line := by
  have hfull : ∀ key, parser_.handlers_.find? key ≠ some none := by
    intro key hkey
    rw [parser_find?] at hkey
    obtain ⟨handler, -, hnone⟩ := Option.map_eq_some_iff.mp hkey
    cases hnone
  rw [Option.isSome_iff_exists]
  constructor
  · rintro ⟨⟨handler, real_command⟩, h⟩
    obtain ⟨rfl, hfirst⟩ := AtParser.processs_command_eq_some_iff.mp h
    obtain ⟨command, hcommand, hpre, -⟩ := hfirst
    exact ⟨command, mem_parser_iff.mp (OrdMap.mem_of_find? hcommand), (List.prefix_append_right_inj _).mpr hpre⟩
  · rintro ⟨command, hcommand, more, rfl⟩
    rw [List.append_assoc]
    obtain ⟨handler, hfind⟩ := (AtParser.findHandler_isSome hfull).mpr
      ⟨command, mem_parser_iff.mpr hcommand, List.prefix_append command more⟩
    exact ⟨(handler, command ++ more), AtParser.processs_command_eq_some_iff.mpr
      ⟨rfl, AtParser.findHandler_eq_some_iff.mp hfind⟩⟩

/-- What is sent for a line. -/
def replyTo (line : Bytes) : Option Bytes :=
  (parser_.processs_command line).bind fun call => (call.1.reply call.2).map (· ++ ascii "\rOK\n")

/-- One line. -/
theorem processs_command_eq (s : GsmMessageProcessor) (line : Bytes) : s.processs_command line =
    { s with
      handled := s.handled ++ [line]
      invoked := s.invoked ++ (parser_.processs_command line).toList
      sent := s.sent ++ (replyTo line).toList } := by
  unfold processs_command replyTo
  cases parser_.processs_command line with
  | none => simp
  | some call =>
    obtain ⟨handler, real_command⟩ := call
    cases hreply : handler.reply real_command with
    | none => simp [hreply]
    | some message => simp [hreply, send_reply]

theorem foldl_processs_command (lines : List Bytes) (s : GsmMessageProcessor) : lines.foldl processs_command s =
    { s with
      handled := s.handled ++ lines
      invoked := s.invoked ++ lines.filterMap parser_.processs_command
      sent := s.sent ++ lines.filterMap replyTo } := by
  induction lines generalizing s with
  | nil => simp
  | cons line lines ih =>
    rw [List.foldl_cons, processs_command_eq, ih]
    cases hcall : parser_.processs_command line <;> cases hreply : replyTo line <;> simp [hcall, hreply]

/-- One call handles the lines that are complete now. -/
theorem process_data_eq (s : GsmMessageProcessor) (data : Bytes) : s.process_data data =
    { buffer_ := Delimited.rest AtParser.isEol (s.buffer_ ++ data)
      handled := s.handled ++ Delimited.complete AtParser.isEol (s.buffer_ ++ data)
      invoked := s.invoked ++
        (Delimited.complete AtParser.isEol (s.buffer_ ++ data)).filterMap parser_.processs_command
      sent := s.sent ++ (Delimited.complete AtParser.isEol (s.buffer_ ++ data)).filterMap replyTo } := by
  obtain ⟨hcommands, hrest⟩ := @AtParser.scan_spec (s.buffer_ ++ data) 0 0 (Nat.le_refl 0) (Nat.zero_le _)
    (by simp)
  rw [List.drop_zero] at hcommands hrest
  unfold process_data
  dsimp only
  rw [hcommands, hrest, foldl_processs_command]

/-- After some chunks: the rest of their bytes is kept, and everything before it was handled. -/
theorem run_eq (chunks : List Bytes) : run chunks =
    { buffer_ := Delimited.rest AtParser.isEol chunks.flatten
      handled := Delimited.complete AtParser.isEol chunks.flatten
      invoked := (Delimited.complete AtParser.isEol chunks.flatten).filterMap parser_.processs_command
      sent := (Delimited.complete AtParser.isEol chunks.flatten).filterMap replyTo } := by
  -- the induction is on the chunks from the last one, since what is kept comes before it
  induction chunks using List.reverseRecOn with
  | nil => rfl
  | append_singleton chunks data ih =>
    unfold run at ih ⊢
    have hcomplete := Delimited.complete_append (p := AtParser.isEol) chunks.flatten data
    have hrest := Delimited.rest_append (p := AtParser.isEol) chunks.flatten data
    rw [List.foldl_append, List.foldl_cons, List.foldl_nil, ih, process_data_eq, List.flatten_append,
      List.flatten_singleton, hcomplete, hrest, List.filterMap_append, List.filterMap_append]

end GsmMessageProcessor

open GsmMessageProcessor

/-- For all chunks: the lines of the whole stream are handled, in order and once each, and the bytes after the
last end of a line are kept. A handler runs for a line exactly if the line is `AT` and begins with a command of
the table behind it, and it is the one of the first such command. -/
theorem gsm_lines (chunks : List Bytes) :
    (run chunks).handled = Delimited.complete AtParser.isEol chunks.flatten ∧
    (run chunks).buffer_ = Delimited.rest AtParser.isEol chunks.flatten ∧
    (run chunks).invoked =
      (Delimited.complete AtParser.isEol chunks.flatten).filterMap parser_.processs_command ∧
    (∀ line, (parser_.processs_command line).isSome ↔
      ∃ command ∈ commands.map Prod.fst, ascii "AT" ++ command <+: line) ∧
    ∀ line handler real_command, parser_.processs_command line = some (handler, real_command) ↔
      line = ascii "AT" ++ real_command ∧ parser_.IsFirstHandler real_command handler := by
  rw [run_eq]
  exact ⟨rfl, rfl, rfl, dispatches_iff, fun _ _ _ => AtParser.processs_command_eq_some_iff⟩

end AnboxReboxed.Qemu
