import LabelScheduler.Proofs.Label.Grammar

/-!
# Sentences and their beginnings

Which tokens may come next depends on no more than whether an operand has just been read and how many parentheses
are open. Neither closing waiting operands nor applying negations changes the number of open parentheses, so the
cursor moves over a token exactly if this little can. From where it stands a reading can always be ended: by an
operand if one is due, and by closing what is open. So the lexemes that can be read are the beginnings of
sentences, and those after which no operand is due and nothing is open are the sentences.
-/

namespace LabelScheduler

open Cursor

/-- Where a reading stands: whether an operand has just been read, and the number of open parentheses. -/
structure Stance where
  operandRead : Bool
  depth : Nat
  deriving DecidableEq

namespace Stance

variable {s s' : Stance} {ks ks' : List TokenKind} {n : Nat}

/-- Nothing has been read. -/
def initial : Stance := ⟨false, 0⟩

/-- A whole expression has been read. -/
def final : Stance := ⟨true, 0⟩

/-- Move over a token, of which only the kind matters. -/
def step : Stance → TokenKind → Option Stance
  | ⟨false, n⟩, .atom => some ⟨true, n⟩
  | ⟨false, n⟩, .not => some ⟨false, n⟩
  | ⟨false, n⟩, .opening => some ⟨false, n + 1⟩
  | ⟨true, n⟩, .connective _ => some ⟨false, n⟩
  | ⟨true, n + 1⟩, .closing => some ⟨true, n⟩
  | _, _ => none

/-- Move over tokens, one after the other. -/
def along (s : Stance) : List TokenKind → Option Stance
  | [] => some s
  | k :: ks => (s.step k).bind (·.along ks)

/-- Moving over tokens may stop on the way. -/
theorem along_append (s : Stance) (ks ks' : List TokenKind) :
    s.along (ks ++ ks') = (s.along ks).bind (·.along ks') := by
  induction ks generalizing s with
  | nil => rfl
  | cons k ks ih =>
      rw [List.cons_append, along, along]
      cases s.step k with
      | none => rfl
      | some s' => exact ih s'

/-- Closing parentheses can close all that is open. -/
theorem along_closings (n : Nat) : along ⟨true, n⟩ (List.replicate n .closing) = some final := by
  induction n with
  | zero => rfl
  | succ n ih => exact ih

end Stance

/-- What may still come to make a sentence: an operand if one is due, then a closing parenthesis for each open
one. -/
def Stance.ending (s : Stance) : List Lexeme :=
  (if s.operandRead then [] else [.ofName "a"]) ++ List.replicate s.depth .closing

/-- Whatever has been read, it can be made a sentence. -/
theorem Stance.along_ending (s : Stance) : s.along (s.ending.map Lexeme.kind) = some final := by
  obtain ⟨operandRead, depth⟩ := s
  have hclosings := along_closings depth
  cases operandRead with
  | true => simpa [ending, Lexeme.closing] using hclosings
  | false => simpa [ending, Lexeme.closing, Lexeme.ofName, along, step] using hclosings

/-- What makes a sentence can be written. -/
theorem Stance.ending_written (s : Stance) : ∀ x ∈ s.ending, x.Written := by
  intro x hx
  rcases List.mem_append.mp hx with hname | hclosing
  · split at hname
    case isTrue => cases hname
    case isFalse =>
      rw [List.mem_singleton.mp hname]
      exact .name (by decide)
  · rw [List.eq_of_mem_replicate hclosing]
    exact .closing

namespace Cursor

variable {c c' : Cursor} {xs ys : List Lexeme} {e : Label} {op : Connective} {fs : List Frame}

/-- Moving over lexemes may stop on the way. -/
theorem along_append (c : Cursor) (xs ys : List Lexeme) :
    c.along (xs ++ ys) = (c.along xs).bind (·.along ys) := by
  induction xs generalizing c with
  | nil => rfl
  | cons x xs ih =>
      rw [List.cons_append, along, along]
      cases c.step ⟨x.kind, x.chars, 0⟩ with
      | none => rfl
      | some c' => exact ih c'

/-- The number of open parentheses. -/
def depth : List Frame → Nat
  | [] => 0
  | .opening :: fs => depth fs + 1
  | .negation :: fs => depth fs
  | .operand _ _ :: fs => depth fs

/-- Where a cursor stands. -/
def stance (c : Cursor) : Stance := ⟨c.read.isSome, depth c.frames⟩

/-- Applying negations opens and closes no parentheses. -/
theorem depth_negate (e : Label) (fs : List Frame) : depth (negate e fs).1 = depth fs := by
  fun_induction negate e fs with
  | case1 e fs ih => exact ih
  | case2 => rfl

/-- Closing operands for a connective opens and closes no parentheses. -/
theorem depth_closeFor (op : Connective) (e : Label) (fs : List Frame) : depth (closeFor op e fs).1 = depth fs := by
  fun_induction closeFor op e fs with
  | case1 e o l fs _ ih => exact ih
  | case2 | case3 => rfl

/-- Behind an operand the stance is that of the frames that it was read on. -/
theorem stance_operandRead (e : Label) (fs : List Frame) : (operandRead e fs).stance = ⟨true, depth fs⟩ :=
  congrArg (Stance.mk true) (depth_negate e fs)

/-- Closing all operands reaches the innermost open parenthesis, or the beginning if there is none. -/
theorem closeAll_opened (hfs : Opened fs xs) (hhead : fs.head? ≠ some .negation) (e : Label) :
    (∃ whole, closeAll e fs = ([], whole) ∧ depth fs = 0) ∨
      ∃ fs' whole, closeAll e fs = (.opening :: fs', whole) ∧ depth fs = depth fs' + 1 := by
  induction hfs generalizing e with
  | nil => exact .inl ⟨e, rfl, rfl⟩
  | @opening fs _ _ _ => exact .inr ⟨fs, e, rfl, rfl⟩
  | negation _ _ => exact absurd rfl hhead
  | operand _ _ hroom ih => exact ih (head?_ne_negation hroom) _

/-- The cursor moves over a token exactly if its stance does, and they move together. -/
theorem stance_step (hc : c.Behind xs) (t : Token) : (c.step t).map stance = c.stance.step t.kind := by
  obtain ⟨frames, read⟩ := c
  cases read with
  | none =>
      cases hkind : t.kind with
      | atom =>
          simp only [step, hkind, Option.map_some, stance_operandRead]
          rfl
      | _ =>
          simp only [step, hkind]
          rfl
  | some e =>
      obtain ⟨_, _, _, hopened, _, hhead⟩ := hc
      cases hkind : t.kind with
      | connective op =>
          have hdepth : depth (closeFor op e frames).1 = depth frames := depth_closeFor op e frames
          simp only [step, hkind, Option.map_some]
          exact congrArg (fun n => some (Stance.mk false n)) hdepth
      | closing =>
          simp only [step, hkind]
          rcases closeAll_opened hopened hhead e with ⟨whole, hclosed, hdepth⟩ | ⟨fs, whole, hclosed, hdepth⟩
          · simp only [hclosed, stance, hdepth]
            rfl
          · simp only [hclosed, Option.map_some, stance_operandRead]
            simp only [stance, hdepth]
            rfl
      | _ =>
          simp only [step, hkind]
          rfl

/-- The cursor moves over lexemes exactly if its stance does, and they move together. -/
theorem stance_along (hc : c.Behind xs) (hys : ∀ y ∈ ys, y.Written) :
    (c.along ys).map stance = c.stance.along (ys.map Lexeme.kind) := by
  induction ys generalizing c xs with
  | nil => rfl
  | cons y ys ih =>
      rw [List.forall_mem_cons] at hys
      have hstep := stance_step hc ⟨y.kind, y.chars, 0⟩
      rw [along, List.map_cons, Stance.along, ← hstep]
      cases hnext : c.step ⟨y.kind, y.chars, 0⟩ with
      | none => rfl
      | some d => exact ih (step_behind hc hys.1 hnext) hys.2

/-- A reading may end exactly where no operand is due and nothing is open. -/
theorem isSome_finish (hc : c.Behind xs) : c.finish.isSome = true ↔ c.stance = .final := by
  obtain ⟨frames, read⟩ := c
  cases read with
  | none => simp [finish, stance, Stance.final]
  | some e =>
      obtain ⟨_, _, _, hopened, _, hhead⟩ := hc
      rcases closeAll_opened hopened hhead e with ⟨whole, hclosed, hdepth⟩ | ⟨fs, whole, hclosed, hdepth⟩
      · simp [finish, hclosed, stance, hdepth, Stance.final]
      · simp [finish, hclosed, stance, hdepth, Stance.final]

end Cursor

/-- The lexemes are a sentence of the grammar. -/
def Sentence (xs : List Lexeme) : Prop := ∃ d : Phrase (.binary .iff), d.lexemes = xs

/-- The lexemes are the beginning of a sentence of the grammar. -/
def Viable (xs : List Lexeme) : Prop := ∃ ys, Sentence (xs ++ ys)

section Sentence

variable {xs ys : List Lexeme}

/-- A sentence is its own beginning. -/
theorem Sentence.viable (h : Sentence xs) : Viable xs := ⟨[], by rwa [List.append_nil]⟩

/-- Behind a sentence, and only there, the reading may end with an expression. -/
theorem sentence_iff_finish {c : Cursor} (hxs : ∀ x ∈ xs, x.Written) (hover : initial.along xs = some c) :
    Sentence xs ↔ c.finish.isSome = true := by
  constructor
  · rintro ⟨d, rfl⟩
    have hread := d.reads.bind_finish
    rw [List.append_nil, hover] at hread
    exact Option.isSome_of_eq_some hread
  · intro hsome
    obtain ⟨e, hfinish⟩ := Option.isSome_iff_exists.mp hsome
    obtain ⟨d, hd, -⟩ := (finish_behind (along_behind initial_behind hxs hover) hfinish).exists_phrase (.binary .iff)
    exact ⟨d, hd⟩

/-- The beginnings of sentences are read. -/
theorem Viable.isSome_along (h : Viable xs) : (initial.along xs).isSome = true := by
  obtain ⟨ys, d, hd⟩ := h
  have hread := d.reads.bind_finish
  rw [List.append_nil, hd, along_append] at hread
  obtain ⟨c', hover, -⟩ := Option.bind_eq_some_iff.mp hread
  obtain ⟨c, hover', -⟩ := Option.bind_eq_some_iff.mp hover
  exact Option.isSome_of_eq_some hover'

/-- Lexemes are a sentence exactly if they lead from the beginning to where a reading may end. -/
theorem sentence_iff (hxs : ∀ x ∈ xs, x.Written) :
    Sentence xs ↔ Stance.initial.along (xs.map Lexeme.kind) = some .final := by
  have hstance : (initial.along xs).map stance = Stance.initial.along _ := stance_along initial_behind hxs
  rw [← hstance]
  cases hover : initial.along xs with
  | none =>
      refine iff_of_false (fun hsentence => ?_) nofun
      have hsome := hsentence.viable.isSome_along
      rw [hover] at hsome
      cases hsome
  | some c =>
      have hc := along_behind initial_behind hxs hover
      rw [sentence_iff_finish hxs hover, isSome_finish hc, Option.map_some, Option.some_inj]

/-- Lexemes are the beginning of a sentence exactly if the cursor can move over them. -/
theorem viable_iff (hxs : ∀ x ∈ xs, x.Written) : Viable xs ↔ (initial.along xs).isSome = true := by
  refine ⟨Viable.isSome_along, fun hsome => ?_⟩
  obtain ⟨c, hover⟩ := Option.isSome_iff_exists.mp hsome
  have hstance := stance_along initial_behind hxs
  rw [hover] at hstance
  refine ⟨c.stance.ending, (sentence_iff ?_).mpr ?_⟩
  · exact List.forall_mem_append.mpr ⟨hxs, c.stance.ending_written⟩
  · rw [List.map_append, Stance.along_append]
    exact (congrArg (Option.bind · _) hstance.symm).trans c.stance.along_ending

end Sentence

end LabelScheduler
