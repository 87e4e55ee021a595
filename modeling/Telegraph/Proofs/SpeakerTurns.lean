import Telegraph.Lib.Grouping
import Telegraph.Proofs.Spelling
import Telegraph.Soniox

namespace Telegraph.Render
open Lib Grouping

/-- The displayed speaker of a token. -/
def Token.label (token : Token) : Option String := token.speaker.map Speaker.toText

/-- What the tokens of a run say. -/
def spoken (run : List Token) : String := String.join (run.map Token.text)

/-- A turn as it is shown. -/
structure Segment where
  speaker : Option String
  content : String

/-- The line of a turn, under the speaker's name when there is one. -/
def Segment.line (segment : Segment) : String :=
  segment.speaker.elim segment.content fun id => "Speaker " ++ id ++ ": " ++ segment.content

/-- Blank content is not shown. -/
def Segment.ofContent (speaker : Option String) (content : String) : Option Segment :=
  if content.isEmpty then none else some ⟨speaker, content⟩

def Segment.ofRun (run : List Token) : Option Segment :=
  run.head?.bind fun token => Segment.ofContent token.label (trim (spoken run))

/-- The turns of a transcript: its runs of one speaker, without the blank ones. -/
def segments (tokens : List Token) : List Segment :=
  (runs Token.label tokens).filterMap Segment.ofRun

/-- A line after what is already written. -/
def addLine (out line : String) : String := if out.isEmpty then line else out ++ "\n" ++ line

section Lines
variable {lines : List String} {line out : String}

theorem addLine_ne (h : line ≠ "") : addLine out line ≠ "" := by
  rw [addLine]
  split <;> simp [h]

theorem foldl_addLine_ne (hne : lines ≠ []) (h : ∀ line ∈ lines, line ≠ "") :
    lines.foldl addLine out ≠ "" := by
  rw [← List.dropLast_append_getLast hne, List.foldl_append]
  exact addLine_ne (h _ (List.getLast_mem hne))

/-- Lines of which none is empty are joined by line breaks. -/
theorem foldl_addLine (h : ∀ line ∈ lines, line ≠ "") :
    lines.foldl addLine "" = "\n".intercalate lines := by
  induction lines using List.reverseRecOn with
  | nil => rfl
  | append_singleton lines line ih =>
    have hlines : ∀ line ∈ lines, line ≠ "" := fun l hl => h l (List.mem_append_left _ hl)
    rw [List.foldl_append, List.foldl_cons, List.foldl_nil]
    by_cases hnil : lines = []
    · subst hnil
      simp [addLine]
    · have hne : lines.foldl addLine "" ≠ "" := foldl_addLine_ne hnil hlines
      rw [ih hlines] at hne ⊢
      rw [addLine, if_neg (by simpa using hne), String.intercalate_append_of_ne_nil hnil (by simp),
        String.intercalate_singleton]

end Lines

section Segments
variable {segment : Segment} {speaker : Option String} {content out : String}

theorem Segment.line_ne (h : segment.content ≠ "") : segment.line ≠ "" := by
  obtain ⟨speaker, content⟩ := segment
  cases speaker <;> simp_all [Segment.line]

theorem Segment.ofRun_ne {run : List Token} (h : Segment.ofRun run = some segment) :
    segment.content ≠ "" := by
  obtain ⟨token, _, hcontent⟩ := Option.bind_eq_some_iff.mp h
  rw [Segment.ofContent] at hcontent
  split at hcontent
  · simp at hcontent
  · next hne =>
    cases hcontent
    simpa using hne

theorem pushSegment_eq (out : String) (speaker : Option String) (content : String) :
    pushSegment out speaker content =
      (Segment.ofContent speaker (trim content)).elim out fun segment => addLine out segment.line := by
  rw [pushSegment, Segment.ofContent]
  split
  · rfl
  · by_cases hout : out = ""
    · subst hout
      cases speaker <;> simp [addLine, Segment.line]
    · have hne : ¬out.isEmpty = true := by simpa using hout
      cases speaker <;> simp only [Option.elim_some, Option.elim_none, addLine, Segment.line,
        if_neg hne, String.append_assoc]

end Segments

/-- Hand a turn on. -/
def flush (out : String) (speaker : Option String) (run : List Token) : String :=
  pushSegment out speaker (spoken run)

theorem flush_nil (out : String) (speaker : Option String) : flush out speaker [] = out := rfl

/-- The variables of the loop: the text of the open turn stands for its tokens. -/
def turnsOf (turns : Open Token (Option String) String) : Turns :=
  ⟨turns.out, turns.key, spoken turns.group⟩

theorem turnsOf_add (turns : Open Token (Option String) String) (token : Token) :
    (turnsOf turns).add token = turnsOf (turns.add Token.label flush token) := by
  by_cases h : token.label = turns.key
  · have hspeaker : token.speaker.map Speaker.toText = turns.key := h
    simp [Turns.add, Open.add, turnsOf, spoken, h, hspeaker]
  · have hspeaker : token.speaker.map Speaker.toText ≠ turns.key := h
    simp [Turns.add, Open.add, turnsOf, spoken, flush, Token.label, hspeaker]

theorem flushRun_eq (out : String) (run : List Token) :
    flushRun Token.label flush out run =
      (Segment.ofRun run).elim out fun segment => addLine out segment.line := by
  cases run with
  | nil => rfl
  | cons token run =>
    rw [flushRun, List.head?_cons, Option.elim_some, flush, pushSegment_eq, Segment.ofRun,
      List.head?_cons, Option.bind_some]

/-- The flush after the loop. -/
def flushTurns (turns : Turns) : String := pushSegment turns.out turns.current turns.segment

theorem flushTurns_turnsOf (turns : Open Token (Option String) String) :
    flushTurns (turnsOf turns) = turns.close flush := by
  rw [flushTurns, turnsOf, Open.close, flush]

/-- The loop writes the lines of the turns. -/
theorem turns_render (tokens : List Token) :
    flushTurns (tokens.foldl Turns.add ⟨"", none, ""⟩) =
      ((segments tokens).map Segment.line).foldl addLine "" := by
  have hturns : tokens.foldl Turns.add (turnsOf ⟨"", none, []⟩) =
      turnsOf (tokens.foldl (Open.add Token.label flush) ⟨"", none, []⟩) :=
    List.foldl_hom turnsOf turnsOf_add
  have hclose : (tokens.foldl (Open.add Token.label flush) ⟨"", none, []⟩).close flush =
      (runs Token.label tokens).foldl (flushRun Token.label flush) "" :=
    close_foldl_start fun speaker => flush_nil "" speaker
  have hsegments : ((segments tokens).map Segment.line).foldl addLine "" =
      (runs Token.label tokens).foldl (flushRun Token.label flush) "" := by
    rw [List.foldl_map, segments, List.foldl_filterMap]
    refine List.foldl_ext _ _ _ fun out run _ => ?_
    rw [flushRun_eq]
    cases Segment.ofRun run <;> simp
  rw [hsegments, ← hclose]
  change flushTurns (tokens.foldl Turns.add (turnsOf ⟨"", none, []⟩)) = _
  rw [hturns, flushTurns_turnsOf]

theorem segment_lines (tokens : List Token) :
    ∀ line ∈ (segments tokens).map Segment.line, line ≠ "" := by
  intro line hline
  obtain ⟨segment, hsegment, rfl⟩ := List.mem_map.mp hline
  obtain ⟨run, _, hrun⟩ := List.mem_filterMap.mp hsegment
  exact Segment.line_ne (Segment.ofRun_ne hrun)

section Whitespace

/-- A text without its whitespace. -/
def unspaced (s : String) : List Char := s.toList.filter (!isWhitespace ·)

theorem unspaced_append (s t : String) : unspaced (s ++ t) = unspaced s ++ unspaced t := by
  rw [unspaced, String.toList_append, List.filter_append, unspaced, unspaced]

theorem unspaced_trim (s : String) : unspaced (trim s) = unspaced s := by
  rw [unspaced, toList_trim, Strip.filter_strip, unspaced]

theorem unspaced_join (texts : List String) : unspaced (String.join texts) = texts.flatMap unspaced := by
  induction texts with
  | nil => rfl
  | cons text texts ih => rw [String.join_cons, unspaced_append, ih, List.flatMap_cons]

/-- A turn shows all its run says but whitespace around it. -/
theorem unspaced_ofRun (run : List Token) :
    (Segment.ofRun run).toList.flatMap (fun segment => unspaced segment.content) =
      unspaced (spoken run) := by
  cases run with
  | nil => rfl
  | cons token run =>
    rw [Segment.ofRun, List.head?_cons, Option.bind_some, Segment.ofContent, ← unspaced_trim]
    split
    · next hblank => simp [unspaced, String.isEmpty_iff.mp hblank]
    · simp

theorem unspaced_segments (tokens : List Token) :
    unspaced (String.join ((segments tokens).map Segment.content)) =
      unspaced (String.join (tokens.map Token.text)) := by
  have hall : (runs Token.label tokens).flatten = tokens := flatten_runs
  have htokens : (tokens.map Token.text).flatMap unspaced =
      (runs Token.label tokens).flatMap fun run => (run.map Token.text).flatMap unspaced := by
    conv_lhs => rw [← hall]
    rw [List.map_flatten, List.flatten_eq_flatMap, List.flatMap_assoc, List.flatMap_map]
    rfl
  rw [unspaced_join, unspaced_join, htokens, List.flatMap_map, segments,
    List.filterMap_eq_flatMap_toList, List.flatMap_assoc]
  simp only [unspaced_ofRun, spoken, unspaced_join]

end Whitespace

/-- The rendered text is the turns' lines, and the turns say all that the tokens say. -/
theorem render_turns (text : String) (tokens : List Token) :
    render text tokens =
      (if tokens.any (·.speaker.isSome) then "\n".intercalate ((segments tokens).map Segment.line)
      else trim text) ∧
    unspaced (String.join ((segments tokens).map Segment.content)) =
      unspaced (String.join (tokens.map Token.text)) := by
  refine ⟨?_, unspaced_segments tokens⟩
  rw [render]
  split
  · rw [← foldl_addLine (segment_lines tokens), ← turns_render, flushTurns]
  · rfl

example : render "" [⟨"Hi", some (.int 1)⟩, ⟨" there ", some (.str "1")⟩, ⟨" ", some (.int 2)⟩,
    ⟨"Yes.", none⟩] = "Speaker 1: Hi there\nYes." := by
  decide +kernel

end Telegraph.Render
