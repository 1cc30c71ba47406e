import Mathlib.Data.List.Basic
import Mathlib.Tactic.SplitIfs

/-!
# Text with tags and entities

A reader of rich text: what stands between `<` and `>` is a tag, what stands between `&` and `;` a character.
Two texts that are read to their ends are read one after the other as each is read alone.
-/

namespace Html

inductive Token
  | text (c : Char)
  | tag (inner : List Char)
  deriving DecidableEq, Repr

inductive Mode
  | text
  | tag (inner : List Char)
  | entity (name : List Char)
  deriving DecidableEq, Repr

structure Reader where
  mode : Mode := .text
  tokens : List Token := []
  deriving DecidableEq, Repr

/-- A space at which no line breaks. -/
def nbsp : Char := '\u00a0'

/-- The named characters. A name that is not known stays as it is written. -/
def entity (name : List Char) : List Char :=
  if name = ['l', 't'] then ['<']
  else if name = ['g', 't'] then ['>']
  else if name = ['a', 'm', 'p'] then ['&']
  else if name = ['q', 'u', 'o', 't'] then ['"']
  else if name = ['n', 'b', 's', 'p'] then [nbsp]
  else '&' :: name ++ [';']

namespace Reader

def push (r : Reader) (tokens : List Token) : Reader := { mode := .text, tokens := r.tokens ++ tokens }

def step (r : Reader) (c : Char) : Reader :=
  match r.mode with
  | .text => if c = '<' then { r with mode := .tag [] } else if c = '&' then { r with mode := .entity [] }
      else r.push [.text c]
  | .tag inner => if c = '>' then r.push [.tag inner] else { r with mode := .tag (inner ++ [c]) }
  | .entity name =>
    if c = ';' then r.push ((entity name).map .text) else { r with mode := .entity (name ++ [c]) }

def feed (r : Reader) (text : List Char) : Reader := text.foldl step r

end Reader

def read (text : List Char) : Reader := ({} : Reader).feed text

/-- The text is read to its end, as these tokens. -/
def Reads (text : List Char) (tokens : List Token) : Prop :=
  ∀ r : Reader, r.mode = .text → r.feed text = r.push tokens

section Reads

variable {text text' : List Char} {tokens tokens' : List Token} {r : Reader}

theorem reads_nil : Reads [] [] := by
  rintro ⟨mode, tokens⟩ rfl
  simp [Reader.feed, Reader.push]

theorem Reads.append (h : Reads text tokens) (h' : Reads text' tokens') :
    Reads (text ++ text') (tokens ++ tokens') := by
  intro r hr
  have hfirst := h r hr
  have hsecond := h' (r.push tokens) rfl
  unfold Reader.feed at *
  rw [List.foldl_append, hfirst, hsecond]
  simp [Reader.push]

theorem Reads.cons {c : Char} {token : Token} (h : Reads [c] [token]) (h' : Reads text tokens) :
    Reads (c :: text) (token :: tokens) := h.append h'

theorem reads_text {c : Char} (hopen : c ≠ '<') (hamp : c ≠ '&') : Reads [c] [.text c] := by
  rintro ⟨mode, tokens⟩ rfl
  simp [Reader.feed, Reader.step, hopen, hamp]

theorem feed_tag {inner rest : List Char} (h : '>' ∉ rest) (tokens : List Token) :
    Reader.feed ⟨.tag inner, tokens⟩ (rest ++ ['>']) = ⟨.text, tokens ++ [.tag (inner ++ rest)]⟩ := by
  induction rest generalizing inner with
  | nil => simp [Reader.feed, Reader.step, Reader.push]
  | cons c rest ih =>
    rw [List.mem_cons, not_or] at h
    have hc : c ≠ '>' := fun heq => h.1 heq.symm
    have hstep : Reader.feed ⟨.tag inner, tokens⟩ (c :: rest ++ ['>']) =
        Reader.feed ⟨.tag (inner ++ [c]), tokens⟩ (rest ++ ['>']) := by
      simp [Reader.feed, Reader.step, hc]
    rw [hstep, ih h.2, List.append_assoc]
    rfl

theorem reads_tag {inner : List Char} (h : '>' ∉ inner) : Reads ('<' :: inner ++ ['>']) [.tag inner] := by
  rintro ⟨mode, tokens⟩ rfl
  exact @feed_tag [] _ h tokens

theorem feed_entity {name rest : List Char} (h : ';' ∉ rest) (tokens : List Token) :
    Reader.feed ⟨.entity name, tokens⟩ (rest ++ [';']) = ⟨.text, tokens ++ (entity (name ++ rest)).map .text⟩ := by
  induction rest generalizing name with
  | nil => simp [Reader.feed, Reader.step, Reader.push]
  | cons c rest ih =>
    rw [List.mem_cons, not_or] at h
    have hc : c ≠ ';' := fun heq => h.1 heq.symm
    have hstep : Reader.feed ⟨.entity name, tokens⟩ (c :: rest ++ [';']) =
        Reader.feed ⟨.entity (name ++ [c]), tokens⟩ (rest ++ [';']) := by
      simp [Reader.feed, Reader.step, hc]
    rw [hstep, ih h.2, List.append_assoc]
    rfl

theorem reads_entity {name : List Char} (h : ';' ∉ name) :
    Reads ('&' :: name ++ [';']) ((entity name).map .text) := by
  rintro ⟨mode, tokens⟩ rfl
  exact @feed_entity [] _ h tokens

theorem Reads.read (h : Reads text tokens) : read text = ⟨.text, tokens⟩ := h {} rfl

end Reads

/-! ## Escaped text -/

/-- `toHtmlEscaped` of a character. -/
def escapeChar (c : Char) : List Char :=
  if c = '<' then ['&', 'l', 't', ';']
  else if c = '>' then ['&', 'g', 't', ';']
  else if c = '&' then ['&', 'a', 'm', 'p', ';']
  else if c = '"' then ['&', 'q', 'u', 'o', 't', ';']
  else [c]

def escape (text : List Char) : List Char := text.flatMap escapeChar

theorem reads_escapeChar (c : Char) : Reads (escapeChar c) [.text c] := by
  unfold escapeChar
  split_ifs with hless hgreater hamp hquote
  · subst hless
    exact @reads_entity ['l', 't'] (by decide)
  · subst hgreater
    exact @reads_entity ['g', 't'] (by decide)
  · subst hamp
    exact @reads_entity ['a', 'm', 'p'] (by decide)
  · subst hquote
    exact @reads_entity ['q', 'u', 'o', 't'] (by decide)
  · exact reads_text hless hamp

/-- Whatever the text is, escaped it is read as itself. -/
theorem reads_escape (text : List Char) : Reads (escape text) (text.map .text) := by
  induction text with
  | nil => exact reads_nil
  | cons c text ih => exact (reads_escapeChar c).append ih

end Html
