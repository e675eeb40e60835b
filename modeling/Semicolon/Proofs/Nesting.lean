/-
Blocks within blocks.

The block of a condition and the block of a `return` count round brackets on their own, each from
the line that opens it, and neither looks at the other or at the running depth.  They still nest as
brackets do.  What a block counts is what all lines since its opening line have opened, so two
counts that run side by side, or a count and the depth, only differ by what the longer one had when
the shorter one started.

For two blocks that start is positive, because a block is pending only while its count is: as long
as the inner block has a bracket open, so has the outer one, and a line that closes many brackets
at once cannot close them in the wrong order.  For a block and the depth it may be anything, and
the depth leaves out comments; where no comment has a bracket, the block only ever holds lines that
the depth holds as well, unless the depth was negative to begin with.
-/
import Semicolon.Proofs.Criterion

namespace Semicolon

/-- The two blocks that count round brackets. -/
inductive Counter where
  | condition
  | result
  deriving DecidableEq, Repr

/-- Does the block open on this text, if it leaves a bracket open? -/
def Counter.opens : Counter → Text → Bool
  | .condition => Text.opensCondition
  | .result => Text.opensResult

/-- What one of the two blocks has counted. -/
def State.tally (s : State) : Counter → Tally
  | .condition => s.condition
  | .result => s.result

namespace Scan

/-- The state in which the blocks enter the line with index `i`, if nothing but the blocks is
stepped. -/
def blocksEntering (lines : List Text) (i : Nat) : State :=
  (lines.take i).foldl (fun s t => (s.stepBlocks t t.trimLeft).1) {}

theorem blocksEntering_succ {lines : List Text} {i : Nat} (hi : i < lines.length) :
    blocksEntering lines (i + 1)
      = ((blocksEntering lines i).stepBlocks (lineAt lines i) (lineAt lines i).trimLeft).1 := by
  rw [blocksEntering, blocksEntering, List.take_add_one, getElem?_of_lt hi, Option.toList_some,
    List.foldl_concat]

theorem course_blocksEntering (c : Counter) (lines : List Text) :
    Course c.opens lines fun i => (blocksEntering lines i).tally c where
  start := by cases c <;> rfl
  next i hi := by
    rw [blocksEntering_succ hi]
    cases c <;> rfl

theorem course_entering (c : Counter) (lines : List Text) :
    Course c.opens lines fun i => (entering lines i).tally c :=
  match c with
  | .condition => course_condition lines
  | .result => course_result lines

/-- The block is idle before line `j` and pending after it. -/
structure Opens (b : Nat → Tally) (j : Nat) : Prop where
  idle : (b j).pending = false
  pending : (b (j + 1)).pending = true

/-- The block is pending after every line from `j` to `i`. -/
def Unclosed (b : Nat → Tally) (j i : Nat) : Prop :=
  ∀ k, j ≤ k → k ≤ i → (b (k + 1)).pending = true

namespace Course

variable {opens opens' : Text → Bool} {lines : List Text} {b x y : Nat → Tally} {j i : Nat}

/-! ### What a block has counted -/

/-- One line of a pending block. -/
theorem next_of_pending (h : Course opens lines b) (hi : i < lines.length)
    (hp : (b i).pending = true) :
    (b (i + 1)).net = (b i).net + (lineAt lines i).parenNet ∧
      ((b (i + 1)).pending = true ↔ 0 < (b (i + 1)).net) := by
  rcases h.next_cases hi with ⟨-, hstep⟩ | ⟨hidle, -⟩ | ⟨hidle, -⟩
  · exact hstep
  · exact absurd (hidle.symm.trans hp) Bool.false_ne_true
  · exact absurd (hidle.symm.trans hp) Bool.false_ne_true

/-- The count of a block is what came since it opened, on the line that closes it as well. -/
theorem net_of_opens (h : Course opens lines b) (hji : j ≤ i) (hi : i < lines.length)
    (hopens : Opens b j) (hopen : ∀ k, j ≤ k → k < i → (b (k + 1)).pending = true) :
    (b (i + 1)).net = tallyOver lines j i := by
  induction i, hji using Nat.le_induction with
  | base =>
      rw [tallyOver_self]
      rcases h.next_cases hi with ⟨hp, -⟩ | ⟨-, -, hnet, -⟩ | ⟨-, -, hidle⟩
      · exact absurd (hopens.idle.symm.trans hp) Bool.false_ne_true
      · exact hnet
      · exact absurd (hidle.symm.trans hopens.pending) Bool.false_ne_true
  | succ i hji ih =>
      have hcount := ih (by omega) fun k hjk hk => hopen k hjk (by omega)
      obtain ⟨hnet, -⟩ := h.next_of_pending hi (hopen i hji (Nat.lt_succ_self i))
      rw [hnet, hcount, tallyOver_succ lines hji]

/-! ### One block within another -/

/-- A block that was pending when another one opened is pending for as long as that one is, and the
two counts keep their distance. -/
theorem pending_of_inner (hx : Course opens lines x) (hy : Course opens' lines y) (hji : j ≤ i)
    (hi : i < lines.length) (hp : (x j).pending = true) (hopens : Opens y j)
    (hinner : Unclosed y j i) :
    (x (i + 1)).pending = true ∧ (x (i + 1)).net - (y (i + 1)).net = (x j).net := by
  have hpos : 0 < (x j).net := hx.net_pos (by omega) hp
  induction i, hji using Nat.le_induction with
  | base =>
      obtain ⟨hnet, hiff⟩ := hx.next_of_pending hi hp
      have hcount := hy.net_of_opens (le_refl j) hi hopens fun k hjk hk => absurd hk (by omega)
      have hopen : 0 < (y (j + 1)).net := hy.net_pos (by omega) hopens.pending
      rw [tallyOver_self] at hcount
      exact ⟨hiff.mpr (by omega), by omega⟩
  | succ i hji ih =>
      obtain ⟨hbefore, hdistance⟩ := ih (by omega) fun k hjk hk => hinner k hjk (by omega)
      obtain ⟨hnet, hiff⟩ := hx.next_of_pending hi hbefore
      obtain ⟨hnet', -⟩ := hy.next_of_pending hi (hinner i hji (by omega))
      have hopen : 0 < (y (i + 1 + 1)).net :=
        hy.net_pos (by omega) (hinner (i + 1) (by omega) (le_refl _))
      exact ⟨hiff.mpr (by omega), by omega⟩

end Course

/-- **The two blocks that count brackets nest.**  Let the inner block open on line `j` while the
outer one is pending.  As long as no line has closed the inner block the outer one is pending too,
and is ahead by the positive count it had before line `j`; and once a line leaves the outer block
idle, that line or an earlier one has closed the inner block. -/
theorem blocks_nest (lines : List Text) (outer inner : Counter) {j i : Nat} (hji : j ≤ i)
    (hi : i < lines.length) (houter : ((blocksEntering lines j).tally outer).pending = true)
    (hopens : Opens (fun i => (blocksEntering lines i).tally inner) j) :
    0 < ((blocksEntering lines j).tally outer).net ∧
    (Unclosed (fun i => (blocksEntering lines i).tally inner) j i →
      ((blocksEntering lines (i + 1)).tally outer).pending = true ∧
      ((blocksEntering lines (i + 1)).tally outer).net
          - ((blocksEntering lines (i + 1)).tally inner).net
        = ((blocksEntering lines j).tally outer).net) ∧
    (((blocksEntering lines (i + 1)).tally outer).pending = false →
      ∃ k, j ≤ k ∧ k ≤ i ∧ ((blocksEntering lines (k + 1)).tally inner).pending = false) := by
  have hnest := (course_blocksEntering outer lines).pending_of_inner
    (course_blocksEntering inner lines) hji hi houter hopens
  refine ⟨(course_blocksEntering outer lines).net_pos (by omega) houter, hnest, fun hclosed => ?_⟩
  by_contra hnone
  have hinner : Unclosed (fun i => (blocksEntering lines i).tally inner) j i := by
    intro k hjk hk
    by_contra hidle
    exact hnone ⟨k, hjk, hk, by simpa using hidle⟩
  exact absurd (hclosed.symm.trans (hnest hinner).1) Bool.false_ne_true

/-- A condition that calls, a `return` inside it, and a line that closes more than both have
open. -/
def nestedLines : List Text := ["while (f(g(", "return ((", ")", ")))))"].map Text.ofString

theorem blocks_nest_nestedLines :
    Unclosed (fun i => (blocksEntering nestedLines i).tally .result) 1 2 ∧
    ((blocksEntering nestedLines 3).tally .condition).net
        - ((blocksEntering nestedLines 3).tally .result).net = 3 ∧
    ((blocksEntering nestedLines 4).tally .condition).pending = false ∧
    ∃ k, 1 ≤ k ∧ k ≤ 3 ∧ ((blocksEntering nestedLines (k + 1)).tally .result).pending = false := by
  have hopens : Opens (fun i => (blocksEntering nestedLines i).tally .result) 1 :=
    ⟨by decide, by decide⟩
  have hinner : Unclosed (fun i => (blocksEntering nestedLines i).tally .result) 1 2 := by
    intro k hk hk'
    obtain rfl | rfl : k = 1 ∨ k = 2 := by omega
    · decide
    · decide
  have hclosed : ((blocksEntering nestedLines 4).tally .condition).pending = false := by decide
  obtain ⟨-, hdistance, -⟩ := blocks_nest nestedLines .condition .result (i := 2) (by omega)
    (by decide) (by decide) hopens
  obtain ⟨-, -, hends⟩ := blocks_nest nestedLines .condition .result (i := 3) (by omega)
    (by decide) (by decide) hopens
  exact ⟨hinner, (hdistance hinner).2, hclosed, hends hclosed⟩

/-! ### A block and the running depth -/

/-- No comment of the file has a round bracket in it. -/
def QuietComments (lines : List Text) : Prop :=
  ∀ t ∈ lines, (Line.ofText t).comment.has '(' = false ∧ (Line.ofText t).comment.has ')' = false

instance (lines : List Text) : Decidable (QuietComments lines) := List.decidableBAll _ lines

/-- Without brackets in its comment, a line opens what its code opens. -/
theorem net_code_of_quiet {t : Text} (hopening : (Line.ofText t).comment.has '(' = false)
    (hclosing : (Line.ofText t).comment.has ')' = false) :
    Text.net '(' ')' (Line.split t).1 = t.parenNet := by
  have hcount : ∀ c : Char, (Line.split t).2.has c = false →
      (Line.split t).2.occurrences c = 0 := by
    intro c hc
    rw [Text.has, ← Bool.not_eq_true, List.contains_iff_mem] at hc
    exact List.count_eq_zero.mpr hc
  have hcomment : Text.net '(' ')' (Line.split t).2 = 0 := by
    rw [Text.net, hcount '(' hopening, hcount ')' hclosing]
    rfl
  obtain ⟨w, hw, hparts, -⟩ := Line.split_parts t
  conv_rhs => rw [Text.parenNet, hparts, Text.net_append, Text.net_append, hcomment,
    Text.net_of_isBlank hw (by decide) (by decide), Int.add_zero, Int.add_zero]

/-- In a file with quiet comments the depth grows by what the lines open. -/
theorem parens_of_quiet {lines : List Text} (hquiet : QuietComments lines) {j i : Nat}
    (hji : j ≤ i) (hi : i < lines.length) :
    (entering lines (i + 1)).parens = (entering lines j).parens + tallyOver lines j i := by
  have hstep : ∀ k < lines.length,
      (entering lines (k + 1)).parens = (entering lines k).parens + (lineAt lines k).parenNet := by
    intro k hk
    have hmem : lineAt lines k ∈ lines := List.mem_of_getElem? (getElem?_of_lt hk)
    obtain ⟨hopening, hclosing⟩ := hquiet _ hmem
    rw [entering_succ_lineAt hk, after_parens, net_code_of_quiet hopening hclosing]
  induction i, hji using Nat.le_induction with
  | base => rw [hstep j hi, tallyOver_self]
  | succ i hji ih =>
      rw [hstep (i + 1) hi, ih (by omega), tallyOver_succ lines hji]
      omega

/-- **A block counts what the depth has gained since the block opened.**  In a file whose comments
have no round brackets, from the line that opens a block to the line that closes it, the depth less
the count is the depth before the block.  If that was not negative, an open bracket alone makes a
continuation of every line of the block but the closing one. -/
theorem depth_sub_count (p : Policy) {lines : List Text} (hquiet : QuietComments lines)
    (c : Counter) {j i : Nat} (hji : j ≤ i) (hi : i < lines.length)
    (hopens : Opens (fun i => (entering lines i).tally c) j)
    (hopen : ∀ k, j ≤ k → k < i → ((entering lines (k + 1)).tally c).pending = true) :
    ∃ st, (steps p lines)[i]? = some st ∧
      st.state.parens - (st.state.tally c).net = (entering lines j).parens ∧
      (0 ≤ (entering lines j).parens → (st.state.tally c).pending = true →
        st.state.insideGroup = true ∧ st.verdict = .continuation) := by
  have hstep : (steps p lines)[i]?
      = some (step p (entering lines i) (lineAt lines i) (lineAt lines (i + 1))) := by
    rw [getElem?_steps, getElem?_of_lt hi]
    rfl
  have hcount : ((entering lines (i + 1)).tally c).net = tallyOver lines j i :=
    (course_entering c lines).net_of_opens hji hi hopens hopen
  have hdepth := parens_of_quiet hquiet hji hi
  rw [step_eq, ← entering_succ_lineAt hi] at hstep
  refine ⟨_, hstep, ?_, fun hbefore hpending => ?_⟩
  · show (entering lines (i + 1)).parens - ((entering lines (i + 1)).tally c).net = _
    omega
  · have hpos : 0 < ((entering lines (i + 1)).tally c).net :=
      (course_entering c lines).net_pos hi hpending
    have hgroup : (entering lines (i + 1)).insideGroup = true := by
      rw [State.insideGroup, Bool.or_eq_true, decide_eq_true_eq]
      exact Or.inl (by omega)
    refine ⟨hgroup, ?_⟩
    rw [Line.verdict, if_pos (by rw [Line.continues, hgroup]; rfl)]

/-- A condition in the middle of a call; its last line closes one bracket more than it has open. -/
def calledLines : List Text :=
  ["f(", "if (a && // first", "g(b", ")))", "c"].map Text.ofString

theorem depth_sub_count_calledLines :
    QuietComments calledLines ∧ Opens (fun i => (entering calledLines i).tally .condition) 1 ∧
    (∃ st, (steps {} calledLines)[2]? = some st ∧ st.state.parens - st.state.condition.net = 1 ∧
      st.verdict = .continuation) ∧
    ∃ st, (steps {} calledLines)[3]? = some st ∧ st.state.condition = ⟨false, -1⟩ ∧
      st.state.parens - st.state.condition.net = 1 := by
  have hquiet : QuietComments calledLines := by decide
  have hopens : Opens (fun i => (entering calledLines i).tally .condition) 1 :=
    ⟨by decide, by decide⟩
  have hopen : ∀ k < 3, 1 ≤ k →
      ((entering calledLines (k + 1)).tally .condition).pending = true := by
    decide
  obtain ⟨st, hst, hdepth, hheld⟩ := depth_sub_count {} hquiet .condition (i := 2) (by decide)
    (by decide) hopens fun k hk hk' => hopen k (by omega) hk
  obtain ⟨last, hlast, hdepth', -⟩ := depth_sub_count {} hquiet .condition (i := 3) (by decide)
    (by decide) hopens fun k hk hk' => hopen k hk' hk
  have hbefore : (entering calledLines 1).parens = 1 := by decide
  have hpending : (steps {} calledLines)[2]?.map (·.state.condition.pending) = some true := by
    decide
  have hclosed : (steps {} calledLines)[3]?.map (·.state.condition) = some ⟨false, -1⟩ := by decide
  rw [hst] at hpending
  rw [hlast] at hclosed
  rw [hbefore] at hdepth hdepth' hheld
  exact ⟨hquiet, hopens, ⟨st, hst, hdepth, (hheld (by decide) (Option.some.inj hpending)).2⟩,
    last, hlast, Option.some.inj hclosed, hdepth'⟩

end Scan

end Semicolon
