import KnxTelegramStore.Lib.FixedWidth
import KnxTelegramStore.Lib.Runs

/-!
A reader of XML as a machine that is fed one character at a time: elements
with attributes, default namespaces, character references, comments and
processing instructions; document types, CDATA sections and prefixed names are
left out. It reports the end of every element, and every comment. An attribute
value that `quoteattr` has quoted is read back as it was, whatever markup it
contains (`run_quoteattr`).
-/
namespace Markup
open EventMachine

/-- The characters a document may consist of. -/
def isXmlChar (c : Char) : Bool :=
  let n := c.toNat
  n == 9 || n == 10 || n == 13 || (0x20 ≤ n && n ≤ 0xD7FF) || (0xE000 ≤ n && n ≤ 0xFFFD) ||
    (0x10000 ≤ n && n ≤ 0x10FFFF)

def isBlank (c : Char) : Bool := c = ' ' || c = '\t' || c = '\n' || c = '\r'

/-- An element with its attributes, in the order they are written. -/
structure Element where
  name : List Char
  attributes : List (List Char × List Char) := []

/-- Where the reader is. -/
inductive Mode where
  | content
  /-- behind `<` -/
  | opening
  /-- between `<?` and `?>`; whether the last character was the `?` -/
  | instruction (ending : Bool)
  /-- behind `<!`, and so many dashes -/
  | bang (dashes : ℕ)
  | comment (text : List Char)
  | name (name : List Char)
  /-- in a start tag, where an attribute may begin -/
  | tag (element : Element)
  | attribute (element : Element) (name : List Char)
  /-- behind the name of an attribute -/
  | named (element : Element) (name : List Char)
  /-- behind its `=` -/
  | equals (element : Element) (name : List Char)
  | value (element : Element) (name : List Char) (quote : Char) (value : List Char)
  | reference (element : Element) (name : List Char) (quote : Char) (value entity : List Char)
  /-- behind a closing quote -/
  | quoted (element : Element)
  /-- behind the `/` of an empty element -/
  | empty (element : Element)
  | closing (name : List Char)

inductive Report where
  | comment (text : List Char)
  | ended (name : List Char) (attributes : List (List Char × List Char))

/-- The reader with the elements that are open, innermost first, each with its
default namespace. -/
structure Reader where
  mode : Mode
  opened : List (List Char × Element)
  reports : List Report

/-- The character a reference stands for. -/
def entity (text : List Char) : Option Char :=
  if text = ['a', 'm', 'p'] then some '&'
  else if text = ['l', 't'] then some '<'
  else if text = ['g', 't'] then some '>'
  else if text = ['q', 'u', 'o', 't'] then some '"'
  else if text = ['a', 'p', 'o', 's'] then some '\''
  else match text with
    | '#' :: digits =>
      if digits ≠ [] ∧ digits.all Char.isDigit ∧ isXmlChar (Char.ofNat (FixedWidth.value 0 digits)) then
        some (Char.ofNat (FixedWidth.value 0 digits))
      else none
    | _ => none

/-- The attribute that sets the default namespace. -/
def xmlns : List Char := ['x', 'm', 'l', 'n', 's']

/-- The default namespace of an element among those that are open. -/
def Reader.space (r : Reader) (element : Element) : List Char :=
  match element.attributes.lookup xmlns, r.opened with
  | some space, _ => space
  | none, (space, _) :: _ => space
  | none, [] => []

/-- `{namespace}name`. -/
def qualified (space name : List Char) : List Char := if space = [] then name else '{' :: space ++ '}' :: name

def Reader.opens (r : Reader) (element : Element) : Reader :=
  { r with mode := .content, opened := (r.space element, element) :: r.opened }

/-- The report of an element that ends. -/
def ended (space : List Char) (element : Element) : Report :=
  .ended (qualified space element.name) (element.attributes.filter (·.1 ≠ xmlns))

/-- Back in content behind an element or a comment. -/
def Reader.reported (r : Reader) (report : Report) : Reader :=
  { r with mode := .content, reports := r.reports ++ [report] }

/-- One character; `none` is a document that is not well formed. -/
def step (r : Reader) (c : Char) : Option Reader :=
  if isXmlChar c then
    match r.mode with
    | .content => some (if c = '<' then { r with mode := .opening } else r)
    | .opening =>
      if c = '/' then some { r with mode := .closing [] }
      else if c = '?' then some { r with mode := .instruction false }
      else if c = '!' then some { r with mode := .bang 0 }
      else if isBlank c || c = '<' || c = '>' then none
      else some { r with mode := .name [c] }
    | .instruction ending =>
      if ending && c = '>' then some { r with mode := .content } else some { r with mode := .instruction (c = '?') }
    | .bang dashes =>
      if c = '-' then some { r with mode := if dashes = 0 then .bang 1 else .comment [] } else none
    | .comment text =>
      -- two dashes in a row end a comment
      if (text.drop (text.length - 2)) = ['-', '-'] then
        if c = '>' then some (r.reported (.comment (text.take (text.length - 2)))) else none
      else some { r with mode := .comment (text ++ [c]) }
    | .name name =>
      if c = '>' then some (r.opens ⟨name, []⟩)
      else if c = '/' then some { r with mode := .empty ⟨name, []⟩ }
      else if isBlank c then some { r with mode := .tag ⟨name, []⟩ }
      else if c = '<' then none
      else some { r with mode := .name (name ++ [c]) }
    | .tag element =>
      if c = '>' then some (r.opens element)
      else if c = '/' then some { r with mode := .empty element }
      else if isBlank c then some r
      else if c = '<' || c = '=' then none
      else some { r with mode := .attribute element [c] }
    | .attribute element name =>
      if c = '=' then some { r with mode := .equals element name }
      else if isBlank c then some { r with mode := .named element name }
      else if c = '<' || c = '>' || c = '/' then none
      else some { r with mode := .attribute element (name ++ [c]) }
    | .named element name =>
      if c = '=' then some { r with mode := .equals element name } else if isBlank c then some r else none
    | .equals element name =>
      if c = '"' || c = '\'' then some { r with mode := .value element name c [] }
      else if isBlank c then some r
      else none
    | .value element name quote value =>
      if c = quote then
        if element.attributes.any (·.1 = name) then none
        else some { r with mode := .quoted { element with attributes := element.attributes ++ [(name, value)] } }
      else if c = '<' then none
      else if c = '&' then some { r with mode := .reference element name quote value [] }
      else some { r with mode := .value element name quote (value ++ [if isBlank c then ' ' else c]) }
    | .reference element name quote value text =>
      if c = ';' then (entity text).map fun c => { r with mode := .value element name quote (value ++ [c]) }
      else some { r with mode := .reference element name quote value (text ++ [c]) }
    | .quoted element =>
      if c = '>' then some (r.opens element)
      else if c = '/' then some { r with mode := .empty element }
      else if isBlank c then some { r with mode := .tag element }
      else none
    | .empty element => if c = '>' then some (r.reported (ended (r.space element) element)) else none
    | .closing name =>
      if c = '>' then
        match r.opened with
        | (space, element) :: opened =>
          if element.name = name then some ({ r with opened }.reported (ended space element)) else none
        | [] => none
      else some { r with mode := .closing (name ++ [c]) }
  else none

/-- A carriage return, with or without a line feed behind it, ends a line. -/
def lineFeeds : List Char → List Char
  | [] => []
  | '\r' :: '\n' :: rest => '\n' :: lineFeeds rest
  | c :: rest => (if c = '\r' then '\n' else c) :: lineFeeds rest

/-- All that a document reports, unless it is not well formed. -/
def read (document : List Char) : Option (List Report) :=
  (run step ⟨.content, [], []⟩ (lineFeeds document)).bind fun r =>
    match r.mode, r.opened with
    | .content, [] => some r.reports
    | _, _ => none

/-! ## Writing attribute values -/

/-- `xml.sax.saxutils.escape` with the entities of `quoteattr`. -/
def escaped (c : Char) : List Char :=
  if c = '&' then ['&', 'a', 'm', 'p', ';']
  else if c = '<' then ['&', 'l', 't', ';']
  else if c = '>' then ['&', 'g', 't', ';']
  else if c = '\n' then ['&', '#', '1', '0', ';']
  else if c = '\r' then ['&', '#', '1', '3', ';']
  else if c = '\t' then ['&', '#', '9', ';']
  else [c]

/-- `xml.sax.saxutils.quoteattr`. -/
def quoteattr (data : List Char) : List Char :=
  let text := data.flatMap escaped
  if text.contains '"' then
    if text.contains '\'' then
      '"' :: text.flatMap (fun c => if c = '"' then ['&', 'q', 'u', 'o', 't', ';'] else [c]) ++ ['"']
    else '\'' :: text ++ ['\'']
  else '"' :: text ++ ['"']

/-! ## Reading them back -/

variable {r : Reader} {element : Element} {name value data : List Char} {quote c : Char}

theorem lineFeeds_eq {text : List Char} (none : '\r' ∉ text) : lineFeeds text = text := by
  induction text with
  | nil => rfl
  | cons c rest ih =>
    have other : c ≠ '\r' := fun same => none (by simp [same])
    rw [lineFeeds, ih fun mem => none (List.mem_cons_of_mem _ mem), if_neg other]
    rintro rest rfl
    exact absurd rfl other

/-- A character that stands for itself in an attribute value. -/
theorem step_plain (legal : isXmlChar c = true) (inside : c ≠ quote) (markup : c ≠ '<' ∧ c ≠ '&')
    (blank : isBlank c = true → c = ' ') :
    step { r with mode := .value element name quote value } c =
      some { r with mode := .value element name quote (value ++ [c]) } := by
  have same : (if isBlank c then ' ' else c) = c := by
    split
    · rename_i own
      exact (blank own).symm
    · rfl
  simp only [step, legal, if_true, inside, markup.1, markup.2, if_false, same]

/-- A character is read back from what stands for it. -/
theorem run_escaped (legal : isXmlChar c = true) (inside : c ≠ quote) (mark : quote = '"' ∨ quote = '\'') :
    run step { r with mode := .value element name quote value } (escaped c) =
      some { r with mode := .value element name quote (value ++ [c]) } := by
  unfold escaped
  split_ifs with ampersand less greater feed return_ tab
  · subst ampersand
    rcases mark with rfl | rfl <;> rfl
  · subst less
    rcases mark with rfl | rfl <;> rfl
  · subst greater
    rcases mark with rfl | rfl <;> rfl
  · subst feed
    rcases mark with rfl | rfl <;> rfl
  · subst return_
    rcases mark with rfl | rfl <;> rfl
  · subst tab
    rcases mark with rfl | rfl <;> rfl
  · refine run_cons.mpr ⟨_, step_plain legal inside ⟨less, ampersand⟩ fun blank => ?_, rfl⟩
    simpa [isBlank, feed, return_, tab] using blank

/-- What holds of each character holds of the value. -/
theorem run_flatMap {write : Char → List Char}
    (each : ∀ c ∈ data, ∀ value, run step { r with mode := .value element name quote value } (write c) =
      some { r with mode := .value element name quote (value ++ [c]) }) :
    run step { r with mode := .value element name quote value } (data.flatMap write) =
      some { r with mode := .value element name quote (value ++ data) } := by
  induction data generalizing value with
  | nil => simp [run]
  | cons c data ih =>
    have rest := @ih (value ++ [c]) fun d mem => each d (List.mem_cons_of_mem _ mem)
    rw [List.append_assoc] at rest
    exact run_append.mpr ⟨_, each c List.mem_cons_self value, rest⟩

/-- A text without markup is its own attribute value. -/
theorem run_plain {text : List Char} (plain : ∀ c ∈ text, isXmlChar c = true ∧ c ≠ quote ∧ (c ≠ '<' ∧ c ≠ '&') ∧
      (isBlank c = true → c = ' ')) :
    run step { r with mode := .value element name quote value } text =
      some { r with mode := .value element name quote (value ++ text) } := by
  have each : run step { r with mode := .value element name quote value } (text.flatMap fun c => [c]) =
      some { r with mode := .value element name quote (value ++ text) } := by
    refine run_flatMap fun c mem value => ?_
    obtain ⟨legal, inside, markup, blank⟩ := plain c mem
    exact run_cons.mpr ⟨_, step_plain legal inside markup blank, rfl⟩
  rwa [List.flatMap_singleton'] at each

theorem step_quote (fresh : element.attributes.any (·.1 = name) = false) (legal : isXmlChar quote = true) :
    step { r with mode := .value element name quote value } quote =
      some { r with mode := .quoted { element with attributes := element.attributes ++ [(name, value)] } } := by
  simp [step, legal, fresh]

/-- The reader does not see through the quotes. -/
theorem run_between (r : Reader) (element : Element) (name : List Char) {inner : List Char}
    (mark : quote = '"' ∨ quote = '\'')
    (fresh : element.attributes.any (·.1 = name) = false)
    (inside : run step { r with mode := .value element name quote [] } inner =
      some { r with mode := .value element name quote value }) :
    run step { r with mode := .equals element name } (quote :: inner ++ [quote]) =
      some { r with mode := .quoted { element with attributes := element.attributes ++ [(name, value)] } } := by
  refine run_cons.mpr ⟨{ r with mode := .value element name quote [] }, ?_, run_append.mpr
    ⟨_, inside, run_cons.mpr ⟨_, ?_, rfl⟩⟩⟩
  · rcases mark with rfl | rfl <;> rfl
  · refine step_quote fresh ?_
    rcases mark with rfl | rfl <;> rfl

/-- **Quoted values are read back** as they were. -/
theorem run_quoteattr (r : Reader) (element : Element) (name : List Char) (legal : data.all isXmlChar = true)
    (fresh : element.attributes.any (·.1 = name) = false) :
    run step { r with mode := .equals element name } (quoteattr data) =
      some { r with mode := .quoted { element with attributes := element.attributes ++ [(name, data)] } } := by
  have legal := List.all_eq_true.mp legal
  unfold quoteattr
  dsimp only
  split_ifs with double single
  · refine run_between r element name (.inl rfl) fresh ?_
    rw [List.flatMap_assoc]
    refine run_flatMap fun c mem value => ?_
    by_cases quote : c = '"'
    · subst quote
      rfl
    · have same : (escaped c).flatMap (fun c => if c = '"' then ['&', 'q', 'u', 'o', 't', ';'] else [c]) =
        escaped c := by
        unfold escaped
        split_ifs
        all_goals simp [quote]
      rw [same]
      exact run_escaped (legal c mem) quote (.inl rfl)
  · refine run_between r element name (.inr rfl) fresh
      (run_flatMap fun c mem value => run_escaped (legal c mem) ?_ (.inr rfl))
    rintro rfl
    refine single (List.contains_iff_mem.mpr (List.mem_flatMap.mpr ⟨_, mem, ?_⟩))
    decide
  · refine run_between r element name (.inl rfl) fresh
      (run_flatMap fun c mem value => run_escaped (legal c mem) ?_ (.inl rfl))
    rintro rfl
    refine double (List.contains_iff_mem.mpr (List.mem_flatMap.mpr ⟨_, mem, ?_⟩))
    decide

/-- A quoted value has no carriage return. -/
theorem return_not_mem_quoteattr (data : List Char) : '\r' ∉ quoteattr data := by
  have text : '\r' ∉ data.flatMap escaped := by
    intro mem
    obtain ⟨c, _, own⟩ := List.mem_flatMap.mp mem
    unfold escaped at own
    split_ifs at own with ampersand less greater feed return_ tab
    -- a carriage return is escaped itself
    · simp at own
    · simp at own
    · simp at own
    · simp at own
    · simp at own
    · simp at own
    · exact return_ (List.mem_singleton.mp own).symm
  intro mem
  unfold quoteattr at mem
  dsimp only at mem
  split_ifs at mem
  · simp only [List.cons_append, List.mem_cons, List.mem_append, List.mem_flatMap] at mem
    rcases mem with first | ⟨c, own, mem⟩ | last
    · cases first
    · split_ifs at mem
      · simp at mem
      · exact text (List.mem_singleton.mp mem ▸ List.mem_flatMap.mpr own)
    · simp at last
  · simp only [List.cons_append, List.mem_cons, List.mem_append] at mem
    rcases mem with first | mem | last
    · cases first
    · exact text mem
    · simp at last
  · simp only [List.cons_append, List.mem_cons, List.mem_append] at mem
    rcases mem with first | mem | last
    · cases first
    · exact text mem
    · simp at last

end Markup
