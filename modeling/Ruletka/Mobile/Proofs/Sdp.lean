/-
What the rewriters make of a session description.

A description is cut into the lines before the first `m=` line and the
sections. The loop of `forceVideoSendrecvSdp` gives each video section one
direction, with two gaps: a video section without a direction gets none when
another video section follows at once, and one at the end of the text gets it
behind the empty line that splitting leaves there. The other two rewriters
are filters.
-/
import Ruletka.Mobile.Sdp

namespace Ruletka.Mobile

namespace Sdp

open Pattern

variable {l : Line} {ls : List Line}

-- ======================================================================= the lines

theorem word_video : word "m=video" ++ [.edge] = word "m=" ++ (word "video" ++ [.edge]) := by
  unfold word
  rw [show "m=video".toList = "m=".toList ++ "video".toList by decide, List.map_append,
    List.append_assoc]

theorem isMedia_of_isVideo (h : isVideo l = true) : isMedia l = true := by
  unfold isVideo begins at h
  rw [word_video] at h
  exact fits_of_append h

/-- No line is both a media line and an attribute. -/
theorem not_isMedia_of_begins {p : Pattern} (h : begins isBlank (.letter 'a' :: p) l = true) :
    isMedia l = false := by
  refine Bool.eq_false_of_not_eq_true fun hm => ?_
  have hsame := sameLetter_of_begins (p := [.letter '=']) hm h
  exact absurd hsame (by decide)

theorem not_isMedia_of_isDirection (h : isDirection l = true) : isMedia l = false := by
  obtain ⟨d, hd, h⟩ := List.any_eq_true.mp h
  simp only [List.mem_cons, List.not_mem_nil, or_false] at hd
  obtain rfl | rfl | rfl | rfl := hd
  all_goals exact not_isMedia_of_begins h

theorem not_isMedia_of_isCandidate (h : isCandidate l = true) : isMedia l = false :=
  not_isMedia_of_begins h

theorem isDirection_sendrecv : isDirection sendrecv = true := by decide

theorem isLine_sendrecv : Lines.IsLine sendrecv := by
  unfold Lines.IsLine
  decide

-- ==================================================================== the sections

/-- An `m=` line and the lines up to the next. -/
@[ext] structure Section where
  head : Line
  body : List Line
  isMedia_head : isMedia head = true
  not_isMedia : ∀ l ∈ body, isMedia l = false

/-- The lines before the first section, and the sections. -/
@[ext] structure Description where
  session : List Line
  media : List Section
  not_isMedia : ∀ l ∈ session, isMedia l = false

def Section.lines (s : Section) : List Line := s.head :: s.body

def Description.lines (d : Description) : List Line :=
  d.session ++ (d.media.map Section.lines).flatten

/-- Cut lines at their `m=` lines. -/
def describe : List Line → Description
  | [] => ⟨[], [], nofun⟩
  | l :: ls =>
    let d := describe ls
    if h : isMedia l = true then ⟨[], ⟨l, d.session, h, d.not_isMedia⟩ :: d.media, nofun⟩
    else ⟨l :: d.session, d.media, List.forall_mem_cons.mpr
      ⟨Bool.eq_false_of_not_eq_true h, d.not_isMedia⟩⟩

theorem describe_cons_of_isMedia (h : isMedia l = true) : describe (l :: ls)
    = ⟨[], ⟨l, (describe ls).session, h, (describe ls).not_isMedia⟩ :: (describe ls).media,
        nofun⟩ := dif_pos h

theorem describe_cons_of_not (h : isMedia l = false) : describe (l :: ls)
    = ⟨l :: (describe ls).session, (describe ls).media,
        List.forall_mem_cons.mpr ⟨h, (describe ls).not_isMedia⟩⟩ := dif_neg (ne_true_of_eq_false h)

theorem lines_describe (ls : List Line) : (describe ls).lines = ls := by
  induction ls with
  | nil => rfl
  | cons l ls ih =>
    cases h : isMedia l with
    | true =>
        rw [describe_cons_of_isMedia h]
        exact congrArg (l :: ·) ih
    | false =>
        rw [describe_cons_of_not h]
        exact congrArg (l :: ·) ih

theorem describe_append {body : List Line} (h : ∀ l ∈ body, isMedia l = false) (ls : List Line) :
    (describe (body ++ ls)).session = body ++ (describe ls).session
      ∧ (describe (body ++ ls)).media = (describe ls).media := by
  induction body with
  | nil => exact ⟨rfl, rfl⟩
  | cons l body ih =>
    obtain ⟨hl, hbody⟩ := List.forall_mem_cons.mp h
    obtain ⟨hsession, hmedia⟩ := ih hbody
    rw [List.cons_append, describe_cons_of_not hl]
    exact ⟨congrArg (l :: ·) hsession, hmedia⟩

/-- Lines of sections are cut where they were joined. -/
theorem describe_lines (d : Description) : describe d.lines = d := by
  have hmedia : ∀ media : List Section, (describe (media.map Section.lines).flatten).session = []
      ∧ (describe (media.map Section.lines).flatten).media = media := by
    intro media
    induction media with
    | nil => exact ⟨rfl, rfl⟩
    | cons s media ih =>
      have hcons : ((s :: media).map Section.lines).flatten
          = s.head :: (s.body ++ (media.map Section.lines).flatten) := rfl
      obtain ⟨hsession, hmedia⟩ := describe_append s.not_isMedia (media.map Section.lines).flatten
      rw [hcons, describe_cons_of_isMedia s.isMedia_head]
      refine ⟨rfl, List.cons_eq_cons.mpr ⟨Section.ext rfl ?_, hmedia.trans ih.2⟩⟩
      show (describe (s.body ++ (media.map Section.lines).flatten)).session = s.body
      rw [hsession, ih.1, List.append_nil]
  obtain ⟨hsession, hmedia'⟩ := describe_append d.not_isMedia (d.media.map Section.lines).flatten
  refine Description.ext (hsession.trans ?_) (hmedia'.trans (hmedia d.media).2)
  rw [(hmedia d.media).1, List.append_nil]

-- ======================================================================= the loop

/-- The lines of a video section behind its `m=` line, after the loop: one
direction in the place of the first, or at the end when there is room for
one there. -/
def direct (room : Bool) : Bool → List Line → List Line
  | saw, [] => if room && !saw then [sendrecv] else []
  | saw, l :: ls =>
    if isDirection l then
      if saw then direct room true ls else sendrecv :: direct room true ls
    else l :: direct room saw ls

theorem mem_direct {room saw : Bool} {body : List Line} (h : l ∈ direct room saw body) :
    l ∈ body ∨ l = sendrecv := by
  induction body generalizing saw with
  | nil =>
    unfold direct at h
    split at h
    · exact .inr (List.mem_singleton.mp h)
    · cases h
  | cons l' body ih =>
    unfold direct at h
    split at h
    · split at h
      · exact (ih h).imp_left (List.mem_cons_of_mem _)
      · obtain h | h := List.mem_cons.mp h
        · exact .inr h
        · exact (ih h).imp_left (List.mem_cons_of_mem _)
    · obtain h | h := List.mem_cons.mp h
      · exact .inl (List.mem_cons.mpr (.inl h))
      · exact (ih h).imp_left (List.mem_cons_of_mem _)

/-- A section after the loop. -/
def Section.direct (room : Bool) (s : Section) : Section where
  head := s.head
  body := if isVideo s.head then Sdp.direct room false s.body else s.body
  isMedia_head := s.isMedia_head
  not_isMedia := by
    intro l hl
    split at hl
    · obtain hl | rfl := mem_direct hl
      · exact s.not_isMedia l hl
      · exact not_isMedia_of_isDirection isDirection_sendrecv
    · exact s.not_isMedia l hl

/-- No other video section follows at once. -/
def hasRoom : List Section → Bool
  | [] => true
  | s :: _ => !isVideo s.head

/-- The sections after the loop. -/
def directAll : List Section → List Section
  | [] => []
  | s :: media => s.direct (hasRoom media) :: directAll media

theorem hasRoom_cons (s : Section) (media : List Section) :
    hasRoom (s :: media) = !isVideo s.head := rfl

/-- The lines of the sections after the loop. -/
def directLines (media : List Section) : List Line :=
  ((directAll media).map Section.lines).flatten

theorem directLines_cons (s : Section) (media : List Section) : directLines (s :: media)
    = s.head :: (if isVideo s.head then direct (hasRoom media) false s.body else s.body)
      ++ directLines media := rfl

def Description.direct (d : Description) : Description := { d with media := directAll d.media }

theorem read_video (s : Scan) (h : isVideo l = true) :
    s.read l = ⟨true, false, s.out ++ [l]⟩ := if_pos h

theorem read_media (s : Scan) (hv : isVideo l = false) (h : isMedia l = true) :
    s.read l = ⟨false, s.sawDir, s.finish ++ [l]⟩ := by
  unfold Scan.read Scan.finish
  rw [if_neg (ne_true_of_eq_false hv), if_pos h]

theorem read_other (s : Scan) (h : isMedia l = false) : s.read l
    = if s.inVideo && isDirection l then
        if s.sawDir then s else { s with out := s.out ++ [sendrecv], sawDir := true }
      else { s with out := s.out ++ [l] } := by
  have hv : ¬ isVideo l = true := fun hv => ne_true_of_eq_false h (isMedia_of_isVideo hv)
  unfold Scan.read
  rw [if_neg hv, if_neg (ne_true_of_eq_false h)]

theorem finish_eq (s : Scan) :
    s.finish = s.out ++ if s.inVideo then direct true s.sawDir [] else [] := by
  obtain ⟨v, d, out⟩ := s
  cases v with
  | false => exact (List.append_nil out).symm
  | true =>
      cases d with
      | false => rfl
      | true => exact (List.append_nil out).symm

/-- **Run**: what the loop makes of the lines behind it. -/
theorem foldl_read (ls : List Line) (s : Scan) : (ls.foldl Scan.read s).finish
    = s.out ++ ((if s.inVideo then direct (hasRoom (describe ls).media) s.sawDir
        (describe ls).session else (describe ls).session) ++ directLines (describe ls).media) := by
  induction ls generalizing s with
  | nil =>
    show s.finish = s.out ++ ((if s.inVideo then direct true s.sawDir [] else []) ++ [])
    rw [finish_eq, List.append_nil]
  | cons l ls ih =>
    rw [List.foldl_cons, ih]
    cases h : isMedia l with
    | true =>
        rw [describe_cons_of_isMedia h]
        rw [hasRoom_cons, directLines_cons]
        dsimp only
        cases hv : isVideo l with
        | true =>
            -- the section before gets nothing
            have hfull : (if s.inVideo then direct false s.sawDir [] else []) = [] := ite_self _
            rw [read_video s hv, if_pos rfl, Bool.not_true, hfull, List.nil_append]
            exact List.append_assoc _ _ _
        | false =>
            rw [read_media s hv h, finish_eq, if_neg Bool.false_ne_true,
              if_neg Bool.false_ne_true, Bool.not_false, List.append_assoc, List.append_assoc]
            rfl
    | false =>
        rw [describe_cons_of_not h, read_other s h]
        obtain ⟨v, d, out⟩ := s
        cases v with
        | false =>
            show (out ++ [l]) ++ _ = out ++ (l :: _ ++ _)
            rw [List.append_assoc]
            rfl
        | true =>
            dsimp only [direct]
            rw [Bool.true_and, if_pos rfl]
            cases hd : isDirection l with
            | false =>
                show (out ++ [l]) ++ _ = out ++ _
                rw [List.append_assoc]
                rfl
            | true =>
                cases d with
                | true => rfl
                | false =>
                    show (out ++ [sendrecv]) ++ _ = out ++ _
                    rw [List.append_assoc]
                    rfl

-- ============================================================== the end of the text

/-- A video section without a direction. -/
def Section.isOpen (s : Section) : Bool := isVideo s.head && !s.body.any isDirection

/-- The loop is in a video section and has met no direction in it. -/
def Scan.isOpen (s : Scan) : Bool := s.inVideo && !s.sawDir

theorem finish_of_not_isOpen {s : Scan} (h : s.isOpen = false) : s.finish = s.out :=
  if_neg (ne_true_of_eq_false h)

/-- The empty line behind the last line end. -/
theorem read_nil (s : Scan) : s.read [] = { s with out := s.out ++ [[]] } := by
  have hd : isDirection [] = false := by decide
  rw [read_other s rfl, hd, Bool.and_false]
  rfl

/-- The loop ends open when the last section is. -/
theorem isOpen_foldl (ls : List Line) (s : Scan) : (ls.foldl Scan.read s).isOpen
    = match (describe ls).media.getLast? with
      | some t => t.isOpen
      | none => s.isOpen && !(describe ls).session.any isDirection := by
  induction ls generalizing s with
  | nil => exact (Bool.and_true _).symm
  | cons l ls ih =>
    rw [List.foldl_cons, ih]
    cases h : isMedia l with
    | true =>
        rw [describe_cons_of_isMedia h]
        dsimp only
        rw [List.getLast?_cons]
        cases hlast : (describe ls).media.getLast? with
        | some t => rfl
        | none =>
            cases hv : isVideo l with
            | true =>
                rw [read_video s hv]
                unfold Section.isOpen
                dsimp only [Option.getD_none]
                rw [hv]
                rfl
            | false =>
                rw [read_media s hv h]
                unfold Section.isOpen
                dsimp only [Option.getD_none]
                rw [hv]
                rfl
    | false =>
        rw [describe_cons_of_not h, read_other s h]
        cases (describe ls).media.getLast? with
        | some t => rfl
        | none =>
            obtain ⟨v, d, out⟩ := s
            dsimp only [List.any_cons]
            cases hd : isDirection l with
            | false =>
                rw [Bool.and_false]
                rfl
            | true =>
                cases v with
                | false => rfl
                | true =>
                    cases d with
                    | true => rfl
                    | false => rfl

-- ==================================================================== one direction

/-- The other lines stay, in order. -/
theorem filter_not_direct (room saw : Bool) (body : List Line) :
    (direct room saw body).filter (fun l => !isDirection l)
      = body.filter fun l => !isDirection l := by
  have hdrop : ∀ ls : List Line, (sendrecv :: ls).filter (fun l => !isDirection l)
      = ls.filter fun l => !isDirection l := by
    intro ls
    rw [List.filter_cons, isDirection_sendrecv]
    rfl
  induction body generalizing saw with
  | nil =>
    unfold direct
    split
    · exact hdrop []
    · rfl
  | cons l body ih =>
    unfold direct
    rw [List.filter_cons]
    cases hd : isDirection l with
    | true =>
        rw [if_pos rfl, Bool.not_true, if_neg Bool.false_ne_true]
        cases saw with
        | true => exact ih true
        | false => exact (hdrop _).trans (ih true)
    | false =>
        rw [if_neg Bool.false_ne_true, List.filter_cons, hd, Bool.not_false, if_pos rfl, ih]
        rfl

/-- Of the directions one is left, if there was one, or room. -/
theorem filter_direct (room saw : Bool) (body : List Line) :
    (direct room saw body).filter isDirection
      = if !saw && (room || body.any isDirection) then [sendrecv] else [] := by
  have hkeep : ∀ ls : List Line, (sendrecv :: ls).filter isDirection
      = sendrecv :: ls.filter isDirection :=
    fun ls => List.filter_cons_of_pos isDirection_sendrecv
  induction body generalizing saw with
  | nil =>
    unfold direct
    rw [List.any_nil, Bool.or_false, Bool.and_comm]
    split
    · exact hkeep []
    · rfl
  | cons l body ih =>
    unfold direct
    rw [List.any_cons]
    cases hd : isDirection l with
    | true =>
        rw [if_pos rfl, Bool.true_or, Bool.or_true, Bool.and_true]
        cases saw with
        | true => exact ih true
        | false => exact (hkeep _).trans (congrArg (sendrecv :: ·) (ih true))
    | false =>
        rw [if_neg Bool.false_ne_true, List.filter_cons_of_neg (ne_true_of_eq_false hd), ih,
          Bool.false_or]

/-- A section with its direction is left as it is. -/
theorem direct_of_one {room : Bool} {body : List Line}
    (h : body.filter isDirection = [sendrecv]) : direct room false body = body := by
  have hnone : ∀ body : List Line, body.filter isDirection = [] → direct room true body = body := by
    intro body h
    induction body with
    | nil => exact if_neg (by simp)
    | cons l body ih =>
      cases hd : isDirection l with
      | true =>
          rw [List.filter_cons_of_pos hd] at h
          cases h
      | false =>
          rw [List.filter_cons_of_neg (ne_true_of_eq_false hd)] at h
          unfold direct
          rw [hd, if_neg Bool.false_ne_true, ih h]
  induction body with
  | nil => cases h
  | cons l body ih =>
    unfold direct
    cases hd : isDirection l with
    | true =>
        rw [List.filter_cons_of_pos hd] at h
        obtain ⟨rfl, hrest⟩ := List.cons_eq_cons.mp h
        rw [if_pos rfl, if_neg Bool.false_ne_true, hnone body hrest]
    | false =>
        rw [List.filter_cons_of_neg (ne_true_of_eq_false hd)] at h
        rw [if_neg Bool.false_ne_true, ih h]

/-- A section as it is to be: a video section has one direction, and nothing
else changes. -/
structure Section.Sendrecv (s s' : Section) : Prop where
  head : s'.head = s.head
  video : isVideo s.head = true → s'.body.filter isDirection = [sendrecv]
    ∧ s'.body.filter (fun l => !isDirection l) = s.body.filter fun l => !isDirection l
  other : isVideo s.head = false → s'.body = s.body

/-- A section is as it is to be when it had a direction, or room for one. -/
theorem Section.sendrecv_direct_iff (room : Bool) (s : Section) :
    s.Sendrecv (s.direct room) ↔ (s.isOpen = true → room = true) := by
  have hbody : (s.direct room).body
      = if isVideo s.head then Sdp.direct room false s.body else s.body := rfl
  unfold Section.isOpen
  cases hv : isVideo s.head with
  | false =>
      rw [hv, if_neg Bool.false_ne_true] at hbody
      refine iff_of_true ⟨rfl, fun h => ?_, fun _ => hbody⟩ nofun
      rw [hv] at h
      cases h
  | true =>
      rw [hv, if_pos rfl] at hbody
      have hone := filter_direct room false s.body
      rw [← hbody, Bool.not_false, Bool.true_and] at hone
      rw [Bool.true_and]
      constructor
      · intro h hopen
        rw [(h.video hv).1, Bool.eq_false_of_not_eq_true' hopen, Bool.or_false] at hone
        by_contra hroom
        rw [if_neg hroom] at hone
        cases hone
      · intro h
        refine ⟨rfl, fun _ => ⟨?_, ?_⟩, fun h => ?_⟩
        · refine hone.trans (if_pos ?_)
          cases hany : s.body.any isDirection with
          | true => exact Bool.or_true _
          | false => rw [h (by rw [hany]; rfl), Bool.true_or]
        · rw [hbody, filter_not_direct]
        · rw [hv] at h
          cases h

/-- Every open section is followed by one that is not video. -/
def Answered (media : List Section) : Prop :=
  ∀ before s after, media = before ++ s :: after → s.isOpen = true →
    ∃ t rest, after = t :: rest ∧ isVideo t.head = false

/-- The last section is not open. -/
def EndsClosed (media : List Section) : Prop := ∀ s, media.getLast? = some s → s.isOpen = false

theorem Answered.endsClosed {media : List Section} (h : Answered media) : EndsClosed media := by
  intro s hlast
  obtain ⟨before, rfl⟩ := List.getLast?_eq_some_iff.mp hlast
  refine Bool.eq_false_of_not_eq_true fun hopen => ?_
  obtain ⟨t, rest, hrest, -⟩ := h before s [] rfl hopen
  cases hrest

/-- **Sections**: the loop makes all of them as they are to be when the open
ones are answered, and only then when the text does not end open. -/
theorem forall₂_directAll_iff {media : List Section} (hend : EndsClosed media) :
    List.Forall₂ Section.Sendrecv media (directAll media) ↔ Answered media := by
  induction media with
  | nil => exact iff_of_true .nil fun before s after h => by simp at h
  | cons s media ih =>
    have hend' : EndsClosed media := by
      intro t ht
      refine hend t ?_
      rw [List.getLast?_cons, ht]
      rfl
    have hcons : directAll (s :: media) = s.direct (hasRoom media) :: directAll media := rfl
    rw [hcons, List.forall₂_cons, Section.sendrecv_direct_iff, ih hend']
    constructor
    · intro ⟨hroom, hmedia⟩ before t after heq hopen
      cases before with
      | nil =>
          obtain ⟨rfl, rfl⟩ := List.cons_eq_cons.mp heq
          have hfollow := hroom hopen
          cases media with
          | nil => exact absurd hopen (ne_true_of_eq_false (hend s rfl))
          | cons u rest => exact ⟨u, rest, rfl, by simpa [hasRoom] using hfollow⟩
      | cons s' before =>
          obtain ⟨rfl, rfl⟩ := List.cons_eq_cons.mp heq
          exact hmedia before t after rfl hopen
    · intro h
      refine ⟨fun hopen => ?_, fun before t after heq => h (s :: before) t after (by rw [heq]; rfl)⟩
      obtain ⟨t, rest, rfl, hvideo⟩ := h [] s media rfl hopen
      rw [hasRoom_cons, hvideo]
      rfl

-- ====================================================================== whole texts

/-- A description as it is to be. -/
structure Sendrecv (ls ls' : List Line) : Prop where
  session : (describe ls').session = (describe ls).session
  media : List.Forall₂ Section.Sendrecv (describe ls).media (describe ls').media

/-- A rewriter makes a text of lines out of one, once and for all. -/
def Rewrites (f : List Char → List Char) (R : List Line → List Line → Prop) (ls : List Line) :
    Prop :=
  ∃ ls', (∀ l ∈ ls', Lines.IsLine l) ∧ f (Lines.text ls) = Lines.text ls'
    ∧ f (f (Lines.text ls)) = f (Lines.text ls) ∧ R ls ls'

theorem split_text (hls : ∀ l ∈ ls, Lines.IsLine l) :
    Lines.split (Lines.text ls) = ls ++ [[]] := Lines.split_text fun l hl => (hls l hl).2

/-- The loop over all lines but the empty one at the end. -/
def scan (ls : List Line) : Scan := ls.foldl Scan.read ⟨false, false, []⟩

theorem finish_scan (ls : List Line) : (scan ls).finish = (describe ls).direct.lines := foldl_read ls _

theorem isOpen_scan_iff : (scan ls).isOpen = false ↔ EndsClosed (describe ls).media := by
  unfold scan EndsClosed
  rw [isOpen_foldl]
  cases (describe ls).media.getLast? with
  | none => exact iff_of_true rfl nofun
  | some t =>
      constructor
      · intro h s hs
        rw [← Option.some.inj hs]
        exact h
      · exact fun h => h t rfl

theorem force_text (hls : ∀ l ∈ ls, Lines.IsLine l) (hne : ls ≠ []) :
    forceVideoSendrecvSdp (Lines.text ls) = Lines.join ((scan ls).read []).finish := by
  unfold forceVideoSendrecvSdp
  rw [if_neg (mt Lines.text_eq_nil_iff.mp hne), split_text hls, List.foldl_append]
  rfl

/-- A text that does not end open stays a text of lines. -/
theorem force_text_of_endsClosed (hls : ∀ l ∈ ls, Lines.IsLine l)
    (hend : EndsClosed (describe ls).media) :
    forceVideoSendrecvSdp (Lines.text ls) = Lines.text (describe ls).direct.lines := by
  by_cases hne : ls = []
  · subst hne
    rfl
  · have hopen := isOpen_scan_iff.mpr hend
    have hfinish : ((scan ls).read []).finish = (scan ls).finish ++ [[]] := by
      rw [read_nil, finish_of_not_isOpen hopen]
      exact finish_of_not_isOpen hopen
    rw [force_text hls hne, hfinish, finish_scan, Lines.join_append_nil]

/-- One that ends open is none any more. -/
theorem force_text_ne (hls : ∀ l ∈ ls, Lines.IsLine l) (hend : ¬ EndsClosed (describe ls).media)
    (ls' : List Line) : forceVideoSendrecvSdp (Lines.text ls) ≠ Lines.text ls' := by
  have hne : ls ≠ [] := by
    rintro rfl
    exact hend nofun
  have hopen : ((scan ls).read []).isOpen = true := by
    rw [read_nil]
    exact Bool.eq_true_of_not_eq_false fun h => hend (isOpen_scan_iff.mp h)
  rw [force_text hls hne, show ((scan ls).read []).finish = ((scan ls).read []).out ++ [sendrecv]
    from if_pos hopen]
  exact Lines.join_ne_text _ _ isLine_sendrecv

-- ================================================================== the first rewriter

/-- The loop adds nothing but directions. -/
theorem mem_lines_direct {d : Description} (h : l ∈ d.direct.lines) : l ∈ d.lines ∨ l = sendrecv := by
  have hall : ∀ media : List Section, l ∈ directLines media →
      l ∈ (media.map Section.lines).flatten ∨ l = sendrecv := by
    intro media
    induction media with
    | nil => exact fun h => .inl h
    | cons s media ih =>
      intro h
      rw [directLines_cons] at h
      rw [List.map_cons, List.flatten_cons]
      obtain h | h := List.mem_append.mp h
      · have hbody : l ∈ s.lines ∨ l = sendrecv := by
          obtain h | h := List.mem_cons.mp h
          · exact .inl (List.mem_cons.mpr (.inl h))
          · split at h
            · exact (mem_direct h).imp_left (List.mem_cons_of_mem _)
            · exact .inl (List.mem_cons_of_mem _ h)
        exact hbody.imp_left (List.mem_append_left _)
      · exact (ih h).imp_left (List.mem_append_right _)
  obtain h | h := List.mem_append.mp h
  · exact .inl (List.mem_append_left _ h)
  · exact (hall d.media h).imp_left (List.mem_append_right _)

theorem isLine_direct (hls : ∀ l ∈ ls, Lines.IsLine l) :
    ∀ l ∈ (describe ls).direct.lines, Lines.IsLine l := by
  intro l hl
  obtain hl | rfl := mem_lines_direct hl
  · rw [lines_describe] at hl
    exact hls l hl
  · exact isLine_sendrecv

/-- Sections that are as they are to be are left alone. -/
theorem Section.Sendrecv.direct {s s' : Section} (h : s.Sendrecv s') (room : Bool) :
    s'.direct room = s' := by
  refine Section.ext rfl ?_
  show (if isVideo s'.head then Sdp.direct room false s'.body else s'.body) = s'.body
  split
  case isTrue hv => exact direct_of_one (h.video (h.head ▸ hv)).1
  case isFalse => rfl

theorem Section.Sendrecv.not_isOpen {s s' : Section} (h : s.Sendrecv s') : s'.isOpen = false := by
  unfold Section.isOpen
  rw [h.head]
  cases hv : isVideo s.head with
  | false => rfl
  | true =>
      have hmem : sendrecv ∈ s'.body.filter isDirection := by
        rw [(h.video hv).1]
        exact List.mem_cons_self
      have hany : s'.body.any isDirection = true :=
        List.any_eq_true.mpr ⟨sendrecv, (List.mem_filter.mp hmem).1, isDirection_sendrecv⟩
      rw [hany]
      rfl

theorem directAll_of_sendrecv {media media' : List Section}
    (h : List.Forall₂ Section.Sendrecv media media') : directAll media' = media' := by
  induction h with
  | nil => rfl
  | cons hs _ ih => exact List.cons_eq_cons.mpr ⟨hs.direct _, ih⟩

theorem not_isOpen_of_sendrecv {media media' : List Section}
    (h : List.Forall₂ Section.Sendrecv media media') : ∀ s ∈ media', s.isOpen = false := by
  induction h with
  | nil => exact nofun
  | cons hs _ ih => exact List.forall_mem_cons.mpr ⟨hs.not_isOpen, ih⟩

/-- **Directions**: the video sections get one direction each, in a text of
lines, when every open one is answered. -/
theorem rewrites_force_iff (hls : ∀ l ∈ ls, Lines.IsLine l) :
    Rewrites forceVideoSendrecvSdp Sendrecv ls ↔ Answered (describe ls).media := by
  constructor
  · intro ⟨ls', hls', heq, _, hR⟩
    have hend : EndsClosed (describe ls).media := by
      by_contra hend
      exact force_text_ne hls hend ls' heq
    rw [force_text_of_endsClosed hls hend] at heq
    have hsame := Lines.text_inj (fun l hl => (isLine_direct hls l hl).2)
      (fun l hl => (hls' l hl).2) heq
    have hmedia := hR.media
    rw [← hsame, describe_lines] at hmedia
    exact (forall₂_directAll_iff hend).mp hmedia
  · intro h
    have hmedia := (forall₂_directAll_iff h.endsClosed).mpr h
    have heq := force_text_of_endsClosed hls h.endsClosed
    refine ⟨(describe ls).direct.lines, isLine_direct hls, heq, ?_, ?_, ?_⟩
    · have hagain : (describe (describe ls).direct.lines).direct = (describe ls).direct := by
        rw [describe_lines]
        exact Description.ext rfl (directAll_of_sendrecv hmedia)
      have hend : EndsClosed (describe (describe ls).direct.lines).media := by
        rw [describe_lines]
        exact fun s hs => not_isOpen_of_sendrecv hmedia s (List.mem_of_getLast? hs)
      rw [heq, force_text_of_endsClosed (isLine_direct hls) hend, hagain]
    · rw [describe_lines]
      rfl
    · rw [describe_lines]
      exact hmedia

-- ================================================================= the other rewriters

/-- A rewriter that drops lines, but no media line. -/
theorem join_filter_text (hls : ∀ l ∈ ls, Lines.IsLine l) {keep : Line → Bool}
    (hkeep : keep [] = true) : Lines.join ((Lines.split (Lines.text ls)).filter keep)
      = Lines.text (ls.filter keep) := by
  rw [split_text hls, List.filter_append, List.filter_cons_of_pos hkeep, List.filter_nil,
    Lines.join_append_nil]

/-- The lines but those of a kind, which is none of the media lines. -/
structure Dropped (target : Line → Bool) (ls ls' : List Line) : Prop where
  rest : ls' = ls.filter fun l => !target l
  media : ls'.filter isMedia = ls.filter isMedia

theorem dropped_filter {target : Line → Bool} (h : ∀ l, target l = true → isCandidate l = true)
    (ls : List Line) : Dropped target ls (ls.filter fun l => !target l) where
  rest := rfl
  media := by
    rw [List.filter_filter]
    refine List.filter_congr fun l _ => ?_
    cases ht : target l with
    | false => exact Bool.and_true _
    | true => rw [not_isMedia_of_isCandidate (h l ht)]; rfl

theorem isCandidate_of_isMdnsHost (h : isMdnsHost l = true) : isCandidate l = true :=
  (Bool.and_eq_true_iff.mp (Bool.and_eq_true_iff.mp h).1).1

theorem strip_text (hls : ∀ l ∈ ls, Lines.IsLine l) : stripMdnsHostCandidatesFromSdp (Lines.text ls)
    = Lines.text (ls.filter fun l => !isMdnsHost l) := by
  unfold stripMdnsHostCandidatesFromSdp
  split
  case isTrue h =>
    rw [Lines.text_eq_nil_iff.mp h]
    rfl
  case isFalse => exact join_filter_text hls rfl

/-- **mDNS hosts** are dropped. -/
theorem rewrites_mdns (hls : ∀ l ∈ ls, Lines.IsLine l) :
    Rewrites stripMdnsHostCandidatesFromSdp (Dropped isMdnsHost) ls := by
  have hrest : ∀ l ∈ ls.filter fun l => !isMdnsHost l, Lines.IsLine l :=
    fun l hl => hls l (List.mem_filter.mp hl).1
  refine ⟨_, hrest, strip_text hls, ?_, dropped_filter (fun _ => isCandidate_of_isMdnsHost) ls⟩
  rw [strip_text hls, strip_text hrest, List.filter_filter]
  simp only [Bool.and_self]

/-- A candidate of another kind than relay. -/
def isOther (l : Line) : Bool := isCandidate l && !hasType "relay" l

theorem isRelay_of_isCandidate (hc : isCandidate l = true) (ho : isOther l = false) :
    isRelay l = true := by
  unfold isOther at ho
  unfold isRelay
  rw [hc, Bool.true_and] at *
  simpa using ho

/-- Relay candidates only, as soon as there is one. -/
structure RelayOnly (ls ls' : List Line) : Prop where
  rest : ls'.filter (fun l => !isOther l) = ls.filter fun l => !isOther l
  media : ls'.filter isMedia = ls.filter isMedia
  relay : (∃ l ∈ ls, isRelay l = true) → ∀ l ∈ ls', isCandidate l = true → isRelay l = true
  none : (∀ l ∈ ls, isRelay l = false) → ls' = ls

/-- What is left of the lines. -/
def relayKept (ls : List Line) : List Line :=
  if ls.countP isRelay = 0 ∨ ls.countP isRelay = ls.countP isCandidate then ls
  else ls.filter fun l => !isOther l

theorem relayKept_text (hls : ∀ l ∈ ls, Lines.IsLine l) :
    stripNonRelayCandidatesFromSdp (Lines.text ls) = Lines.text (relayKept ls) := by
  have hcount : ∀ p : Line → Bool, p [] = false →
      (Lines.split (Lines.text ls)).countP p = ls.countP p := by
    intro p hp
    rw [split_text hls, List.countP_append, List.countP_cons_of_neg (ne_true_of_eq_false hp)]
    rfl
  unfold stripNonRelayCandidatesFromSdp
  split
  case isTrue h =>
    rw [Lines.text_eq_nil_iff.mp h]
    rfl
  case isFalse =>
    dsimp only
    rw [hcount isRelay rfl, hcount isCandidate rfl]
    unfold relayKept
    split
    · rfl
    · exact join_filter_text hls rfl

/-- All candidates are relay when as many are. -/
theorem forall_isRelay_of_countP (h : ls.countP isRelay = ls.countP isCandidate) :
    ∀ l ∈ ls, isCandidate l = true → isRelay l = true := by
  induction ls with
  | nil => exact nofun
  | cons l ls ih =>
    have hle : ls.countP isRelay ≤ ls.countP isCandidate :=
      List.countP_mono_left fun l _ h => (Bool.and_eq_true_iff.mp h).1
    rw [List.countP_cons, List.countP_cons] at h
    cases hc : isCandidate l with
    | false =>
        have hr : isRelay l = false := by
          unfold isRelay
          rw [hc]
          rfl
        rw [hc, hr] at h
        exact List.forall_mem_cons.mpr ⟨fun h => absurd (hc ▸ h) Bool.false_ne_true, ih h⟩
    | true =>
        cases hr : isRelay l with
        | false =>
            rw [hc, hr, if_pos rfl, if_neg Bool.false_ne_true] at h
            omega
        | true =>
            rw [hc, hr] at h
            exact List.forall_mem_cons.mpr ⟨fun _ => hr, ih (Nat.add_right_cancel h)⟩

theorem relayOnly_relayKept (ls : List Line) : RelayOnly ls (relayKept ls) := by
  unfold relayKept
  split
  case isTrue h =>
    refine ⟨rfl, rfl, fun ⟨l, hl, hr⟩ => ?_, fun _ => rfl⟩
    obtain h | h := h
    · exact absurd hr (List.countP_eq_zero.mp h l hl)
    · exact forall_isRelay_of_countP h
  case isFalse h =>
    obtain ⟨hrelay, -⟩ := not_or.mp h
    have hdropped := @dropped_filter isOther (fun l h => (Bool.and_eq_true_iff.mp h).1) ls
    refine ⟨?_, hdropped.media, fun _ l hl hc => ?_, fun hnone => ?_⟩
    · rw [List.filter_filter]
      simp only [Bool.and_self]
    · have ho := (List.mem_filter.mp hl).2
      exact isRelay_of_isCandidate hc (by simpa using ho)
    · exact absurd (List.countP_eq_zero.mpr fun l hl => ne_true_of_eq_false (hnone l hl)) hrelay

theorem relayKept_relayKept (ls : List Line) : relayKept (relayKept ls) = relayKept ls := by
  by_cases h : ∃ l ∈ ls, isRelay l = true
  · have hall := (relayOnly_relayKept ls).relay h
    have hsame : (relayKept ls).countP isRelay = (relayKept ls).countP isCandidate := by
      refine List.countP_congr fun l hl => ⟨fun h => (Bool.and_eq_true_iff.mp h).1, hall l hl⟩
    exact if_pos (.inr hsame)
  · have hnone : ∀ l ∈ ls, isRelay l = false :=
      fun l hl => Bool.eq_false_of_not_eq_true fun hr => h ⟨l, hl, hr⟩
    rw [(relayOnly_relayKept ls).none hnone]
    exact (relayOnly_relayKept ls).none hnone

/-- **Relays** alone are kept. -/
theorem rewrites_relay (hls : ∀ l ∈ ls, Lines.IsLine l) :
    Rewrites stripNonRelayCandidatesFromSdp RelayOnly ls := by
  have hkept : ∀ l ∈ relayKept ls, Lines.IsLine l := by
    intro l hl
    unfold relayKept at hl
    split at hl
    · exact hls l hl
    · exact hls l (List.mem_filter.mp hl).1
  refine ⟨_, hkept, relayKept_text hls, ?_, relayOnly_relayKept ls⟩
  rw [relayKept_text hls, relayKept_text hkept, relayKept_relayKept]

-- ========================================================================= all three

/-- **Rewriting**: all three make texts of lines as they are to be out of the
lines of a text, when every open video section is followed by one that is not
video. -/
theorem sdp_rewrites_iff (hls : ∀ l ∈ ls, Lines.IsLine l) :
    (Rewrites forceVideoSendrecvSdp Sendrecv ls
      ∧ Rewrites stripMdnsHostCandidatesFromSdp (Dropped isMdnsHost) ls
      ∧ Rewrites stripNonRelayCandidatesFromSdp RelayOnly ls)
    ↔ Answered (describe ls).media := by
  rw [and_iff_left ⟨rewrites_mdns hls, rewrites_relay hls⟩]
  exact rewrites_force_iff hls

/-- A direction behind the end of a text, and a video section without one. -/
theorem direction_misplaced :
    (∃ ls, (∀ l ∈ ls, Lines.IsLine l)
      ∧ forceVideoSendrecvSdp (Lines.text ls)
        = "v=0\r\nm=video 9 RTP/AVP 96\r\n\r\na=sendrecv".toList
      ∧ ∀ ls', forceVideoSendrecvSdp (Lines.text ls) ≠ Lines.text ls')
    ∧ ∃ ls, (∀ l ∈ ls, Lines.IsLine l)
      ∧ ls = ["m=video 9".toList, "m=video 7".toList, "a=recvonly".toList]
      ∧ forceVideoSendrecvSdp (Lines.text ls)
        = Lines.text ["m=video 9".toList, "m=video 7".toList, "a=sendrecv".toList] := by
  refine ⟨⟨["v=0".toList, "m=video 9 RTP/AVP 96".toList], ?_, by decide, ?_⟩,
    _, ?_, rfl, by decide⟩
  · unfold Lines.IsLine
    decide
  · refine force_text_ne (by unfold Lines.IsLine; decide) fun hend => ?_
    exact absurd (isOpen_scan_iff.mpr hend) (by decide)
  · unfold Lines.IsLine
    decide

/-- A video section with a direction of its own, before another section. -/
def answer : List Line :=
  ["v=0".toList, "m=video 9".toList, "a=recvonly".toList, "m=audio 9".toList, "a=sendonly".toList]

/-- It becomes `a=sendrecv`, and the audio section keeps its own. -/
theorem sdp_rewrites_answer : Rewrites forceVideoSendrecvSdp Sendrecv answer
    ∧ forceVideoSendrecvSdp (Lines.text answer)
      = "v=0\r\nm=video 9\r\na=sendrecv\r\nm=audio 9\r\na=sendonly\r\n".toList := by
  refine ⟨((sdp_rewrites_iff (by unfold Lines.IsLine; decide)).mpr ?_).1, by decide⟩
  intro before s after heq hopen
  have hclosed : ∀ s ∈ (describe answer).media, s.isOpen = false := by decide
  exact absurd (hclosed s (by rw [heq]; simp)) (ne_true_of_eq_false · hopen)

end Sdp

end Ruletka.Mobile
