import Srtla.Lib.Text

/-!
# The text exposition format of metrics

A metric family has a name, a help text, a type and samples; a sample is a list of
labels and a value. A family is written as a HELP line, a TYPE line and one line for
each sample:

    # HELP http_requests_total The requests served
    # TYPE http_requests_total counter
    http_requests_total{method="post",code="200"} 1027

`read` is a strict reader of such texts. It refuses a family that appears twice, a
sample outside of its family, and two samples with the same labels in one family. It
reads integers only and label values without escapes.

* `read_print`: what is written from well-formed families is read back.
-/

namespace Lib.Exposition

open Lib

/-- The type of a family. -/
inductive Kind
  | counter
  | gauge
deriving DecidableEq

abbrev Labels := List (Text × Text)

structure Family where
  name : Text
  help : Text
  kind : Kind
  samples : List (Labels × ℤ)
deriving DecidableEq

/-! ## Writing -/

def Kind.text : Kind → Text
  | .counter => ['c', 'o', 'u', 'n', 't', 'e', 'r']
  | .gauge => ['g', 'a', 'u', 'g', 'e']

def helpWord : Text := ['H', 'E', 'L', 'P']

def typeWord : Text := ['T', 'Y', 'P', 'E']

def labelText (p : Text × Text) : Text := p.1 ++ '=' :: '"' :: p.2 ++ ['"']

def labelsText (labels : Labels) : Text :=
  if labels = [] then [] else '{' :: ([','].intercalate (labels.map labelText) ++ ['}'])

/-- A line that starts with `#`. -/
def headerLine (word name rest : Text) : Text := '#' :: ' ' :: (word ++ ' ' :: (name ++ ' ' :: rest))

def helpLine (name help : Text) : Text := headerLine helpWord name help

def typeLine (name : Text) (kind : Kind) : Text := headerLine typeWord name kind.text

def sampleLine (name : Text) (s : Labels × ℤ) : Text := name ++ labelsText s.1 ++ ' ' :: intText s.2

def Family.lines (f : Family) : List Text :=
  helpLine f.name f.help :: typeLine f.name f.kind :: f.samples.map (sampleLine f.name)

def print (fams : List Family) : Text := unlines (fams.flatMap Family.lines)

/-! ## Reading a line -/

/-- The characters of names. -/
def nameChar (c : Char) : Bool := c.isAlphanum || c == '_' || c == ':'

/-- The characters that stand between the parts of a line. -/
def separators : List Char := ['\n', ' ', '"', ',', '{', '}']

/-- The lines of the format. -/
inductive Line
  | help (name help : Text)
  | type (name : Text) (kind : Kind)
  | sample (name : Text) (labels : Labels) (value : ℤ)
deriving DecidableEq

def readKind (t : Text) : Option Kind :=
  if t = Kind.counter.text then some .counter else if t = Kind.gauge.text then some .gauge else none

def readLabel (t : Text) : Option (Text × Text) :=
  match t.splitOn '"' with
  | [k, v, []] => if k.getLast? = some '=' then some (k.dropLast, v) else none
  | _ => none

def readSeries (t : Text) : Option (Text × Labels) :=
  match t.splitOn '{' with
  | [name] => some (name, [])
  | [name, rest] =>
    if rest.getLast? = some '}' then ((rest.dropLast.splitOn ',').mapM readLabel).map fun l => (name, l)
    else none
  | _ => none

/-- A line that starts with `#`. -/
def readHeader : List Text → Option Line
  | k :: name :: rest =>
    if k = helpWord then some (.help name ([' '].intercalate rest))
    else if k = typeWord ∧ rest.length = 1 then (readKind rest.flatten).map (.type name)
    else none
  | _ => none

def readSample (series value : Text) : Option Line :=
  (readSeries series).bind fun p => (readInt value).map (.sample p.1 p.2)

def readLine (t : Text) : Option Line :=
  match t.splitOn ' ' with
  | w :: ws =>
    if w = ['#'] then readHeader ws
    else if ws.length = 1 then readSample w ws.flatten
    else none
  | [] => none

/-! ## Reading a text -/

/-- The families read so far, the last one first, and the name and the text of a HELP
    line that waits for its TYPE line. -/
structure Reading where
  families : List Family
  pending : Option (Text × Text)

def Reading.line (r : Reading) : Line → Option Reading
  | .help name help =>
    if r.pending = none ∧ name.all nameChar = true ∧ name ∉ r.families.map Family.name then
      some { r with pending := some (name, help) }
    else none
  | .type name kind =>
    match r.pending with
    | some p => if p.1 = name then some ⟨⟨name, p.2, kind, []⟩ :: r.families, none⟩ else none
    | none => none
  | .sample name labels value =>
    match r.families with
    | f :: fs =>
      if r.pending = none ∧ f.name = name ∧ labels ∉ f.samples.map Prod.fst then
        some ⟨{ f with samples := f.samples ++ [(labels, value)] } :: fs, none⟩
      else none
    | [] => none

/-- All the lines, one after the other. -/
def Reading.lines (r : Reading) : List Text → Option Reading
  | [] => some r
  | t :: ts => ((readLine t).bind r.line).bind fun r => r.lines ts

def read (t : Text) : Option (List Family) :=
  ((readLines t).bind (Reading.lines ⟨[], none⟩)).bind fun r =>
    if r.pending = none then some r.families.reverse else none

/-! ## Well-formed families -/

/-- A text that can stand between separators. -/
def Plain (t : Text) : Prop := ∀ c ∈ t, c ∉ separators

structure Family.WellFormed (f : Family) : Prop where
  name : ∀ c ∈ f.name, nameChar c = true
  help : '\n' ∉ f.help
  labels : ∀ s ∈ f.samples, ∀ p ∈ s.1, Plain p.1 ∧ Plain p.2
  series : (f.samples.map Prod.fst).Nodup

theorem plain_of_nameChar {t : Text} (h : ∀ c ∈ t, nameChar c = true) : Plain t := by
  intro c hc hsep
  have hname : separators.all (fun c => !nameChar c) = true := by decide
  have hnot := List.all_eq_true.mp hname c hsep
  rw [h c hc] at hnot
  cases hnot

theorem Plain.notMem {t : Text} (h : Plain t) {c : Char} (hc : c ∈ separators) : c ∉ t :=
  fun ht => h c ht hc

theorem Plain.append {t u : Text} (ht : Plain t) (hu : Plain u) : Plain (t ++ u) := by
  intro c hc
  rcases List.mem_append.mp hc with hc | hc
  · exact ht c hc
  · exact hu c hc

theorem plain_natText (n : ℕ) : Plain (natText n) := by
  refine plain_of_nameChar fun c hc => ?_
  rw [nameChar, Char.isAlphanum, isDigit_of_mem_natText hc, Bool.or_true, Bool.true_or, Bool.true_or]

/-! ## Lines are read back -/

theorem mem_intercalate {x c : Char} {ls : List Text} (h : c ∈ [x].intercalate ls) :
    c = x ∨ ∃ l ∈ ls, c ∈ l := by
  induction ls with
  | nil => simp at h
  | cons l ls ih =>
    cases ls with
    | nil =>
      rw [List.intercalate_singleton] at h
      exact Or.inr ⟨l, List.mem_cons_self, h⟩
    | cons l' ls =>
      rw [List.intercalate_cons_cons] at h
      simp only [List.mem_append, List.mem_singleton] at h
      rcases h with (h | h) | h
      · exact Or.inr ⟨l, List.mem_cons_self, h⟩
      · exact Or.inl h
      · obtain h | ⟨l'', hl'', h⟩ := ih h
        · exact Or.inl h
        · exact Or.inr ⟨l'', List.mem_cons_of_mem _ hl'', h⟩

section

variable {name : Text} {labels : Labels} {p : Text × Text}

theorem notMem_labelText (hp : Plain p.1 ∧ Plain p.2) {c : Char} (hsep : c ∈ separators) (hquote : c ≠ '"') :
    c ∉ labelText p := by
  have hequals : c ≠ '=' := by
    rintro rfl
    exact absurd hsep (by decide)
  simp only [labelText, List.mem_append, List.mem_cons, List.not_mem_nil, or_false, not_or]
  exact ⟨⟨hp.1.notMem hsep, hequals, hquote, hp.2.notMem hsep⟩, hquote⟩

theorem notMem_labels (h : ∀ p ∈ labels, Plain p.1 ∧ Plain p.2) {c : Char} (hsep : c ∈ separators)
    (hquote : c ≠ '"') (hcomma : c ≠ ',') : c ∉ [','].intercalate (labels.map labelText) := by
  intro hmem
  obtain hmem | ⟨l, hl, hmem⟩ := mem_intercalate hmem
  · exact hcomma hmem
  · obtain ⟨p, hp, rfl⟩ := List.mem_map.mp hl
    exact notMem_labelText (h p hp) hsep hquote hmem

theorem readLabel_labelText (hk : Plain p.1) (hv : Plain p.2) : readLabel (labelText p) = some p := by
  have hkey : '"' ∉ p.1 ++ ['='] := by
    rw [List.mem_append, List.mem_singleton, not_or]
    exact ⟨hk.notMem (by decide), by decide⟩
  have hsplit : (labelText p).splitOn '"' = [p.1 ++ ['='], p.2, []] := by
    have htext : labelText p = (p.1 ++ ['=']) ++ '"' :: (p.2 ++ '"' :: []) := by
      simp [labelText]
    rw [htext, splitOn_cons hkey, splitOn_pair (hv.notMem (by decide)) List.not_mem_nil]
  unfold readLabel
  rw [hsplit]
  dsimp only
  rw [List.getLast?_concat, if_pos rfl, List.dropLast_concat]

theorem mapM_readLabel (h : ∀ p ∈ labels, Plain p.1 ∧ Plain p.2) :
    (labels.map labelText).mapM readLabel = some labels := by
  induction labels with
  | nil => rfl
  | cons p labels ih =>
    obtain ⟨hk, hv⟩ := h p List.mem_cons_self
    rw [List.map_cons, List.mapM_cons, readLabel_labelText hk hv,
      ih fun q hq => h q (List.mem_cons_of_mem _ hq)]
    rfl

/-- The separators of lines and of words do not stand in labels. -/
theorem notMem_labelsText (h : ∀ p ∈ labels, Plain p.1 ∧ Plain p.2) {c : Char} (hc : c = '\n' ∨ c = ' ') :
    c ∉ labelsText labels := by
  have hsep : c ∈ separators ∧ c ∉ ['"', ',', '{', '}'] := by
    rcases hc with rfl | rfl <;> decide
  simp only [List.mem_cons, List.not_mem_nil, or_false, not_or] at hsep
  obtain ⟨hsep, hquote, hcomma, hleft, hright⟩ := hsep
  unfold labelsText
  split_ifs
  · exact List.not_mem_nil
  · simp only [List.mem_cons, List.mem_append, List.not_mem_nil, or_false, not_or]
    exact ⟨hleft, notMem_labels h hsep hquote hcomma, hright⟩

theorem readSeries_text (hname : Plain name) (h : ∀ p ∈ labels, Plain p.1 ∧ Plain p.2) :
    readSeries (name ++ labelsText labels) = some (name, labels) := by
  have hleft : '{' ∉ name := hname.notMem (by decide)
  unfold readSeries labelsText
  by_cases hnil : labels = []
  · rw [if_pos hnil, List.append_nil, splitOn_single hleft, hnil]
  · have hinner : '{' ∉ [','].intercalate (labels.map labelText) ++ ['}'] := by
      rw [List.mem_append, not_or]
      exact ⟨notMem_labels h (by decide) (by decide) (by decide), by decide⟩
    have hcomma : ∀ l ∈ labels.map labelText, ',' ∉ l := by
      intro l hl
      obtain ⟨p, hp, rfl⟩ := List.mem_map.mp hl
      exact notMem_labelText (h p hp) (by decide) (by decide)
    have hne : labels.map labelText ≠ [] := fun he => hnil (List.map_eq_nil_iff.mp he)
    rw [if_neg hnil, splitOn_pair hleft hinner]
    dsimp only
    rw [List.getLast?_concat, if_pos rfl, List.dropLast_concat, List.splitOn_intercalate ',' hcomma hne,
      mapM_readLabel h]
    rfl

theorem splitOn_headerLine {word : Text} (hword : ' ' ∉ word) (hname : Plain name) (rest : Text) :
    (headerLine word name rest).splitOn ' ' = ['#'] :: word :: name :: rest.splitOn ' ' := by
  have hhash : ' ' ∉ ['#'] := by decide
  show (['#'] ++ ' ' :: (word ++ ' ' :: (name ++ ' ' :: rest))).splitOn ' ' = _
  rw [splitOn_cons hhash, splitOn_cons hword, splitOn_cons (hname.notMem (by decide))]

theorem readLine_helpLine (hname : Plain name) (help : Text) :
    readLine (helpLine name help) = some (.help name help) := by
  unfold readLine helpLine
  rw [splitOn_headerLine (by decide) hname]
  dsimp only
  rw [if_pos rfl, readHeader, if_pos rfl, List.intercalate_splitOn]

theorem notMem_kind {c : Char} (hc : c ∈ separators) (kind : Kind) : c ∉ kind.text := by
  have hplain : separators.all (fun c => !kind.text.contains c) = true := by
    cases kind <;> decide
  have hnot := List.all_eq_true.mp hplain c hc
  rw [Bool.not_eq_true'] at hnot
  exact fun hmem => Bool.eq_false_iff.mp hnot (List.contains_iff_mem.mpr hmem)

theorem readLine_typeLine (hname : Plain name) (kind : Kind) :
    readLine (typeLine name kind) = some (.type name kind) := by
  have hkind : readKind kind.text = some kind := by
    cases kind <;> decide
  unfold readLine typeLine
  rw [splitOn_headerLine (by decide) hname, splitOn_single (notMem_kind (by decide) kind)]
  dsimp only
  rw [if_pos rfl, readHeader, if_neg (by decide), if_pos ⟨rfl, rfl⟩, List.flatten_singleton, hkind]
  rfl

theorem readLine_sampleLine (hname : ∀ c ∈ name, nameChar c = true)
    (h : ∀ p ∈ labels, Plain p.1 ∧ Plain p.2) (value : ℤ) :
    readLine (sampleLine name (labels, value)) = some (.sample name labels value) := by
  have hplain := plain_of_nameChar hname
  have hseries : ' ' ∉ name ++ labelsText labels := by
    rw [List.mem_append, not_or]
    exact ⟨hplain.notMem (by decide), notMem_labelsText h (Or.inr rfl)⟩
  have hword : name ++ labelsText labels ≠ ['#'] := by
    intro he
    have hread := readSeries_text hplain h
    have hhash : readSeries ['#'] = some (['#'], []) := by decide
    rw [he, hhash] at hread
    have hcontra := hname '#' (by rw [← (Prod.mk.inj (Option.some.inj hread)).1]; exact List.mem_cons_self)
    exact absurd hcontra (by decide)
  unfold readLine sampleLine
  rw [splitOn_pair hseries (notMem_intText (by decide) (by decide) value)]
  dsimp only
  rw [if_neg hword, if_pos List.length_singleton, List.flatten_singleton, readSample,
    readSeries_text hplain h, readInt_intText]
  rfl

end

/-! ## Texts are read back -/

variable {f : Family} {fams : List Family}

theorem Reading.lines_append (r : Reading) (ts ts' : List Text) :
    r.lines (ts ++ ts') = (r.lines ts).bind fun r => r.lines ts' := by
  induction ts generalizing r with
  | nil => rfl
  | cons t ts ih =>
    rw [List.cons_append, Reading.lines, Reading.lines]
    cases (readLine t).bind r.line with
    | none => rfl
    | some r' => exact ih r'

/-- The samples of a family, after those in `done`. -/
theorem lines_samples (hname : ∀ c ∈ f.name, nameChar c = true) (fams : List Family)
    (done rest : List (Labels × ℤ)) (hlabels : ∀ s ∈ rest, ∀ p ∈ s.1, Plain p.1 ∧ Plain p.2)
    (hnodup : ((done ++ rest).map Prod.fst).Nodup) :
    Reading.lines ⟨{ f with samples := done } :: fams, none⟩ (rest.map (sampleLine f.name)) =
      some ⟨{ f with samples := done ++ rest } :: fams, none⟩ := by
  induction rest generalizing done with
  | nil => rw [List.append_nil]; rfl
  | cons s rest ih =>
    have hnew : s.1 ∉ done.map Prod.fst := by
      rw [List.map_append, List.map_cons, List.nodup_append] at hnodup
      exact fun hmem => hnodup.2.2 _ hmem _ List.mem_cons_self rfl
    rw [List.map_cons, Reading.lines, show s = (s.1, s.2) from rfl,
      readLine_sampleLine hname (hlabels s List.mem_cons_self), Option.bind_some, Reading.line]
    dsimp only
    rw [if_pos ⟨rfl, rfl, hnew⟩, Option.bind_some]
    refine (ih (done ++ [s]) (fun t ht => hlabels t (List.mem_cons_of_mem _ ht)) ?_).trans ?_
    · rw [List.append_assoc]
      exact hnodup
    · rw [List.append_assoc]
      rfl

/-- A family with a new name. -/
theorem lines_family (h : f.WellFormed) (hnew : f.name ∉ fams.map Family.name) :
    Reading.lines ⟨fams, none⟩ f.lines = some ⟨f :: fams, none⟩ := by
  have hplain := plain_of_nameChar h.name
  rw [Family.lines, Reading.lines, readLine_helpLine hplain, Option.bind_some, Reading.line,
    if_pos ⟨rfl, List.all_eq_true.mpr h.name, hnew⟩, Option.bind_some, Reading.lines,
    readLine_typeLine hplain, Option.bind_some, Reading.line]
  dsimp only
  rw [if_pos rfl, Option.bind_some]
  exact lines_samples (f := f) h.name fams [] f.samples h.labels h.series

theorem lines_families (h : ∀ f ∈ fams, f.WellFormed) (done : List Family)
    (hnodup : ((done.reverse ++ fams).map Family.name).Nodup) :
    Reading.lines ⟨done, none⟩ (fams.flatMap Family.lines) = some ⟨fams.reverse ++ done, none⟩ := by
  induction fams generalizing done with
  | nil => rfl
  | cons f fams ih =>
    have hnew : f.name ∉ done.map Family.name := by
      rw [List.map_append, List.map_cons, List.nodup_append] at hnodup
      intro hmem
      refine hnodup.2.2 _ ?_ _ List.mem_cons_self rfl
      rw [List.map_reverse, List.mem_reverse]
      exact hmem
    rw [List.flatMap_cons, Reading.lines_append, lines_family (h f List.mem_cons_self) hnew, Option.bind_some,
      ih (fun g hg => h g (List.mem_cons_of_mem _ hg)) (f :: done)]
    · rw [List.reverse_cons, List.append_assoc]
      rfl
    · rw [List.reverse_cons, List.append_assoc]
      exact hnodup

theorem notMem_headerLine {word rest : Text} (hword : '\n' ∉ word) (hname : Plain f.name) (hrest : '\n' ∉ rest) :
    '\n' ∉ headerLine word f.name rest := by
  simp only [headerLine, List.mem_append, List.mem_cons, not_or]
  exact ⟨by decide, by decide, hword, by decide, hname.notMem (by decide), by decide, hrest⟩

/-- No line of a family contains a line break. -/
theorem notMem_lines (h : f.WellFormed) : ∀ l ∈ f.lines, '\n' ∉ l := by
  have hname := plain_of_nameChar h.name
  intro l hl
  rcases List.mem_cons.mp hl with rfl | hl
  · exact notMem_headerLine (by decide) hname h.help
  rcases List.mem_cons.mp hl with rfl | hl
  · exact notMem_headerLine (by decide) hname (notMem_kind (by decide) f.kind)
  · obtain ⟨s, hs, rfl⟩ := List.mem_map.mp hl
    simp only [sampleLine, List.mem_append, List.mem_cons, not_or]
    exact ⟨⟨hname.notMem (by decide), notMem_labelsText (h.labels s hs) (Or.inl rfl)⟩, by decide,
      notMem_intText (by decide) (by decide) s.2⟩

/-- **Well-formed families with distinct names are read back.** -/
theorem read_print (h : ∀ f ∈ fams, f.WellFormed) (hnames : (fams.map Family.name).Nodup) :
    read (print fams) = some fams := by
  have hbreak : ∀ l ∈ fams.flatMap Family.lines, '\n' ∉ l := by
    intro l hl
    obtain ⟨f, hf, hl⟩ := List.mem_flatMap.mp hl
    exact notMem_lines (h f hf) l hl
  rw [read, print, readLines_unlines hbreak, Option.bind_some, lines_families h [] hnames, Option.bind_some,
    if_pos rfl, List.append_nil, List.reverse_reverse]

end Lib.Exposition
