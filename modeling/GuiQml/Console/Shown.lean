import GuiQml.Console.Markup
import Mathlib.Tactic.IntervalCases

/-!
# What a reply shows

Whatever the node replies, the markup of a row shows the reply and nothing of the reply is read as markup.
-/

namespace GuiQml.Console

open Html

variable {key_color : QColor} {html html' text text' : List Char} {tokens tokens' : List Token}

/-! ## Pieces -/

theorem shown_cons (token : Token) (tokens : List Token) : shown (token :: tokens) = shownToken token ++ shown tokens :=
  List.flatMap_cons

@[simp] theorem shown_append (tokens tokens' : List Token) :
    shown (tokens ++ tokens') = shown tokens ++ shown tokens' :=
  List.flatMap_append

@[simp] theorem shown_text (text : List Char) : shown (text.map .text) = text.map shownChar := by
  induction text with
  | nil => rfl
  | cons c text ih => exact congrArg (shownChar c :: ·) ih

theorem Marked.append (h : Marked key_color tokens) (h' : Marked key_color tokens') :
    Marked key_color (tokens ++ tokens') := by
  induction h with
  | nil => exact h'
  | text c _ ih => exact ih.text c
  | br _ ih => exact ih.br
  | key text _ ih =>
    rw [List.append_assoc]
    exact ih.key text

theorem marked_text (key_color : QColor) (text : List Char) : Marked key_color (text.map .text) := by
  induction text with
  | nil => exact .nil
  | cons c text ih => exact ih.text c

theorem Renders.append (h : Renders key_color html text) (h' : Renders key_color html' text') :
    Renders key_color (html ++ html') (text ++ text') := by
  obtain ⟨tokens, hreads, rfl, hmarked⟩ := h
  obtain ⟨tokens', hreads', rfl, hmarked'⟩ := h'
  exact ⟨tokens ++ tokens', hreads.append hreads', shown_append _ _, hmarked.append hmarked'⟩

theorem renders_nil : Renders key_color [] [] := ⟨[], reads_nil, rfl, .nil⟩

theorem renders_br : Renders key_color "<br>".toList ['\n'] :=
  ⟨[.tag ['b', 'r']], @reads_tag ['b', 'r'] (by decide), rfl, .br .nil⟩

theorem renders_escape (text : List Char) : Renders key_color (escape text) (text.map shownChar) :=
  ⟨text.map .text, reads_escape text, shown_text text, marked_text key_color text⟩

/-- Characters that show themselves when they are written as they are. -/
def isPlain (c : Char) : Bool := c != '<' && c != '&' && c != nbsp

theorem renders_plain {text : List Char} (h : text.all isPlain = true) : Renders key_color text text := by
  induction text with
  | nil => exact renders_nil
  | cons c text ih =>
    rw [List.all_cons, Bool.and_eq_true] at h
    obtain ⟨hc, htext⟩ := h
    simp only [isPlain, Bool.and_eq_true, bne_iff_ne] at hc
    obtain ⟨⟨hlt, hamp⟩, hnbsp⟩ := hc
    have hone : Renders key_color [c] [c] :=
      ⟨[.text c], reads_text hlt hamp, by simp [shown, shownToken, shownChar, hnbsp], .text c .nil⟩
    exact hone.append (ih htext)

theorem renders_nbsp : Renders key_color "&nbsp;".toList [' '] :=
  ⟨[.text nbsp], @reads_entity ['n', 'b', 's', 'p'] (by decide), rfl, .text nbsp .nil⟩

theorem renders_indent (depth : Nat) : Renders key_color (AppendIndent depth) (indent depth) := by
  unfold AppendIndent indent
  induction depth * 2 with
  | zero => exact renders_nil
  | succ n ih =>
    rw [List.replicate_succ, List.replicate_succ, List.flatten_cons]
    exact renders_nbsp.append ih

/-! ## Text -/

theorem digitChar_ne {d : Nat} (h : d < 16) : d.digitChar ≠ '>' := by
  interval_cases d <;> decide

theorem not_mem_keyTag (key_color : QColor) : '>' ∉ keyTag key_color := by
  unfold keyTag QColor.name
  simp only [List.mem_append, List.mem_cons, List.mem_map, not_or, not_exists, not_and]
  refine ⟨⟨by decide, by decide, fun d _ => ?_⟩, by decide, List.not_mem_nil⟩
  exact digitChar_ne d.isLt

theorem renders_key (key_color : QColor) (key : QString) :
    Renders key_color ('<' :: keyTag key_color ++ ['>'] ++ ('"' :: escape key ++ "\"</span>: ".toList))
      ('"' :: key.map shownChar ++ "\": ".toList) := by
  have hquote : Reads ['"'] [.text '"'] := reads_text (by decide) (by decide)
  have hend : Reads "</span>".toList [.tag "/span".toList] := @reads_tag "/span".toList (by decide)
  have hcolon : Renders key_color ": ".toList ": ".toList := renders_plain rfl
  have hspan : Renders key_color ('<' :: keyTag key_color ++ ['>'] ++ ('"' :: escape key ++ "\"</span>".toList))
      ('"' :: key.map shownChar ++ ['"']) := by
    refine ⟨.tag (keyTag key_color) :: ('"' :: key ++ ['"']).map .text ++ [.tag "/span".toList], ?_, ?_,
      .key ('"' :: key ++ ['"']) .nil⟩
    · have htext := (hquote.append (reads_escape key)).append (hquote.append hend)
      have hread := (reads_tag (not_mem_keyTag key_color)).append htext
      have hstring : "\"</span>".toList = '"' :: "</span>".toList := rfl
      rw [hstring]
      simpa only [List.append_assoc, List.cons_append, List.nil_append, List.map_cons, List.map_append,
        List.map_nil] using hread
    · have hopen : shownToken (.tag (keyTag key_color)) = [] := by
        rw [shownToken, if_neg]
        intro h
        have hhead : some 's' = some 'b' := congrArg List.head? h
        simp at hhead
      have hquoted : shown (('"' :: key ++ ['"']).map .text) = '"' :: key.map shownChar ++ ['"'] := by
        rw [shown_text, List.cons_append, List.map_cons, List.map_append]
        rfl
      have hclose : shown [.tag "/span".toList] = [] := rfl
      rw [List.cons_append, shown_cons, hopen, shown_append, hquoted, hclose, List.nil_append, List.append_nil]
  have hstring : "\"</span>: ".toList = "\"</span>".toList ++ ": ".toList := rfl
  have hplain : "\": ".toList = ['"'] ++ ": ".toList := rfl
  rw [hstring, hplain]
  simpa only [List.append_assoc, List.cons_append, List.nil_append] using hspan.append hcolon

theorem renders_comma (last : Bool) :
    Renders key_color (if last then [] else [',']) (if last then [] else [',']) := by
  cases last with
  | true => exact renders_nil
  | false => exact renders_plain rfl

theorem renders_open (c : Char) (h : [c].all isPlain = true) :
    Renders key_color (c :: "<br>".toList) [c, '\n'] := (renders_plain h).append renders_br

theorem renders_number (text : NumberText) : Renders key_color text.val text.val := by
  refine renders_plain (List.all_eq_true.2 fun c hc => ?_)
  have hnumber : isNumberChar c = true := List.all_eq_true.1 text.property c hc
  simp only [isPlain, Bool.and_eq_true, bne_iff_ne]
  refine ⟨⟨?_, ?_⟩, ?_⟩ <;>
  · rintro rfl
    revert hnumber
    decide

mutual

theorem renders_value (key_color : QColor) (depth : Nat) (v : UniValue) :
    Renders key_color (AppendValue key_color depth v) (plain depth v) :=
  match v with
  | .null => by
    rw [AppendValue, plain]
    exact renders_plain rfl
  | .bool b => by
    rw [AppendValue, plain]
    cases b <;> exact renders_plain rfl
  | .num text => by
    rw [AppendValue, plain]
    exact renders_number text
  | .str text => by
    rw [AppendValue, plain]
    have hquote : Renders key_color ['"'] ['"'] := renders_plain rfl
    exact (hquote.append (renders_escape text)).append hquote
  | .arr values => by
    have hitems := renders_items key_color depth values
    rw [AppendValue, plain]
    split
    · exact renders_plain rfl
    · exact (((renders_open '[' rfl).append hitems).append (renders_indent depth)).append
        (renders_plain rfl)
  | .obj keys values => by
    have hfields := renders_fields key_color depth keys values
    rw [AppendValue, plain]
    split
    · exact renders_plain rfl
    · exact (((renders_open '{' rfl).append hfields).append (renders_indent depth)).append
        (renders_plain rfl)

theorem renders_fields (key_color : QColor) (depth : Nat) (keys : List QString) (values : List UniValue) :
    Renders key_color (AppendFields key_color depth keys values) (plainFields depth keys values) :=
  match keys, values with
  | [], [] | [], _ :: _ | _ :: _, [] => by
    simp only [AppendFields, plainFields]
    exact renders_nil
  | key :: keys, value :: values => by
    have hvalue := renders_value key_color (depth + 1) value
    have hfields := renders_fields key_color depth keys values
    have hkey := (renders_indent (depth + 1)).append (renders_key key_color key)
    have hline := ((hkey.append hvalue).append (renders_comma keys.isEmpty)).append renders_br
    have hall := hline.append hfields
    rw [AppendFields, plainFields]
    simpa only [List.append_assoc, List.cons_append] using hall

theorem renders_items (key_color : QColor) (depth : Nat) (values : List UniValue) :
    Renders key_color (AppendItems key_color depth values) (plainItems depth values) :=
  match values with
  | [] => by
    rw [AppendItems, plainItems]
    exact renders_nil
  | value :: values => by
    have hvalue := (renders_indent (depth + 1)).append (renders_value key_color (depth + 1) value)
    have hitems := renders_items key_color depth values
    rw [AppendItems, plainItems]
    exact ((hvalue.append (renders_comma values.isEmpty)).append renders_br).append hitems

end

end GuiQml.Console
