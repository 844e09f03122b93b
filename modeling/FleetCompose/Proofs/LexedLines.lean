import FleetCompose.Proofs.ScannedBlocks
import FleetCompose.Yaml.Token.Lexer

/-!
# Lexing line by line

Between two tokens the lexer of a written document is in one of a few states. This module says
what one round of the lexer makes of them: for scalars and empty collections, for keys with their
colons, and for the indicators of block collections.
-/

namespace FleetCompose.Yaml

open Value (spaces)

theorem IsPlain.opens {cs : List Char} (plain : IsPlain cs) (tail : List Char) :
    Opens (cs ++ tail) := by
  obtain ⟨c, rest, rfl, -⟩ := plain.words.exists_cons
  exact ⟨plain.words.solid tail, plain.head_ne, plain.noOrderMark⟩

/-- Most characters can start a token. -/
theorem Opens.of_head (c : Char) {tail : List Char}
    (plain : (isSpaceOrTab c || isBreak c || c == '#' || c == byteOrderMark) = false) :
    Opens (c :: tail) := by
  simp only [Bool.or_eq_false_iff, beq_eq_false_iff_ne] at plain
  exact ⟨by rintro d ⟨⟩; exact plain.1.1, by simpa using plain.1.2, by simpa using plain.2⟩

namespace Lexer

/-! ## States -/

/-- A lexer outside flow collections. -/
def stand (keyAllowed : Bool) (pending : Option PendingKey) (cursor : Cursor) (indent : Int)
    (indents : List Int) (reversed : List Token) : Lexer :=
  ⟨cursor, indent, indents, keyAllowed, [pending], reversed, reversed.length, false⟩

variable {keyAllowed : Bool} {pending : Option PendingKey} {cursor : Cursor} {indent : Int}
variable {indents : List Int} {reversed : List Token} {rest behind : List Char} {mark : Mark}

theorem inFlow_stand : (stand keyAllowed pending cursor indent indents reversed).inFlow = false :=
  rfl

/-- A pending key that may be given up. -/
def Optional (pending : Option PendingKey) (line : Nat) : Prop :=
  ∀ key ∈ pending, key.required = false ∧ key.mark.line ≤ line

theorem optional_none (line : Nat) : Optional none line := by
  intro key pending
  cases pending

/-- Stale keys can be given up if none of them has to be a key. -/
theorem dropStale_eq {lexer : Lexer}
    (free : ∀ place ∈ lexer.pending, ∀ key ∈ place, key.required = true →
      lexer.isStale key = false) :
    lexer.dropStale = .ok { lexer with
      pending := lexer.pending.map fun place => place.filter fun key => !lexer.isStale key } := by
  have noneRequired : (lexer.pending.filterMap fun place =>
      place.filter lexer.isStale).reverse.find? PendingKey.required = none := by
    rw [List.find?_eq_none]
    intro key member
    rw [List.mem_reverse, List.mem_filterMap] at member
    obtain ⟨place, placeMember, kept⟩ := member
    obtain ⟨isKey, stale⟩ := Option.filter_eq_some_iff.mp kept
    intro required
    rw [free place placeMember key isKey required] at stale
    cases stale
  simp only [dropStale, noneRequired]

/-- Pending keys of earlier lines are given up. -/
theorem dropStale_stand {line : Nat} (optional : Optional pending line)
    (later : line < cursor.mark.line) :
    (stand keyAllowed pending cursor indent indents reversed).dropStale =
      .ok (stand keyAllowed none cursor indent indents reversed) := by
  rw [dropStale_eq]
  · cases pending with
    | none => rfl
    | some key =>
        have stale : (stand keyAllowed (some key) cursor indent indents reversed).isStale key =
            true := by
          have earlier : key.mark.line < cursor.mark.line :=
            Nat.lt_of_le_of_lt (optional key rfl).2 later
          simp [isStale, stand, Lexer.mark, earlier]
        simp only [stand] at stale ⊢
        simp [stale]
  · simp only [stand, List.mem_singleton, forall_eq]
    intro key isKey required
    rw [(optional key isKey).1] at required
    cases required

/-- Keys that are not stale stay. -/
theorem dropStale_of_fresh {lexer : Lexer}
    (fresh : ∀ place ∈ lexer.pending, ∀ key ∈ place, lexer.isStale key = false) :
    lexer.dropStale = .ok lexer := by
  have stay : (lexer.pending.map fun place => place.filter fun key => !lexer.isStale key) =
      lexer.pending := by
    conv_rhs => rw [← List.map_id lexer.pending]
    refine List.map_congr_left fun place member => ?_
    cases place with
    | none => rfl
    | some key => simp [Option.filter, fresh _ member key rfl]
  rw [dropStale_eq fun place member key isKey _ => fresh place member key isKey, stay]

theorem dropStale_none :
    (stand keyAllowed none cursor indent indents reversed).dropStale =
      .ok (stand keyAllowed none cursor indent indents reversed) :=
  dropStale_of_fresh (by simp [stand])

/-- The pending key that a token on the mark may start. -/
def pendingAt (keyAllowed : Bool) (indent : Int) (reversed : List Token) (mark : Mark) :
    Option PendingKey :=
  if keyAllowed then some ⟨indent == mark.column, reversed.length, mark⟩ else none

theorem optional_pendingAt (inside : indent < mark.column) :
    Optional (pendingAt keyAllowed indent reversed mark) mark.line := by
  have different : (indent == (mark.column : Int)) = false := by
    rw [beq_eq_false_iff_ne]
    omega
  cases keyAllowed with
  | false => exact optional_none _
  | true =>
      rintro key ⟨⟩
      exact ⟨different, Nat.le_refl _⟩

/-- A key does not get stale on its line as long as it is not too long. -/
theorem isStale_pendingAt {lexer : Lexer} (line : lexer.mark.line = mark.line)
    (near : lexer.mark.index ≤ mark.index + longestPending) :
    ∀ key ∈ pendingAt keyAllowed indent reversed mark, lexer.isStale key = false := by
  cases keyAllowed with
  | false =>
      intro key pending
      cases pending
  | true =>
      rintro key ⟨⟩
      simp [isStale, line, Nat.not_lt.mpr near]

/-- What has become of the pending key at a later mark of its line. -/
def Kept (pending : Option PendingKey) (keyAllowed : Bool) (indent : Int) (reversed : List Token)
    (mark later : Mark) : Prop :=
  pending = pendingAt keyAllowed indent reversed mark ∨
    (pending = none ∧ mark.index + longestPending < later.index)

theorem Kept.eq_of_le {later : Mark} (kept : Kept pending keyAllowed indent reversed mark later)
    (near : later.index ≤ mark.index + longestPending) :
    pending = pendingAt keyAllowed indent reversed mark :=
  kept.resolve_right fun dropped => absurd dropped.2 (Nat.not_lt.mpr near)

theorem Kept.optional {later : Mark} (kept : Kept pending keyAllowed indent reversed mark later)
    (inside : indent < mark.column) : Optional pending mark.line := by
  rcases kept with rfl | ⟨rfl, -⟩
  · exact optional_pendingAt inside
  · exact optional_none _

/-- A key that is too long is given up, unless it has to be one. -/
theorem exists_kept {later : Mark} {keyAllowed' : Bool} {indents' : List Int}
    {reversed' : List Token} (line : later.line = mark.line)
    (free : indent < mark.column ∨ later.index ≤ mark.index + longestPending) :
    ∃ pending, Kept pending keyAllowed indent reversed mark later ∧
      (stand keyAllowed' (pendingAt keyAllowed indent reversed mark) ⟨rest, later⟩ indent indents'
          reversed').dropStale =
        .ok (stand keyAllowed' pending ⟨rest, later⟩ indent indents' reversed') := by
  by_cases near : later.index ≤ mark.index + longestPending
  · refine ⟨_, .inl rfl, dropStale_of_fresh ?_⟩
    rintro place (_ | ⟨_, ⟨⟩⟩)
    exact isStale_pendingAt line near
  · have inside := free.resolve_right near
    refine ⟨none, .inr ⟨rfl, Nat.not_le.mp near⟩, ?_⟩
    have optional := @optional_pendingAt keyAllowed indent reversed mark inside
    rw [dropStale_eq]
    · cases keyAllowed with
      | false => rfl
      | true =>
          have stale : (mark.index + longestPending < later.index) = True :=
            eq_true (Nat.not_le.mp near)
          simp [stand, pendingAt, isStale, Lexer.mark, stale]
    · rintro place (_ | ⟨_, ⟨⟩⟩) key isKey required
      rw [(optional key isKey).1] at required
      cases required

theorem markPending_stand :
    (stand keyAllowed none cursor indent indents reversed).markPending =
      .ok (stand keyAllowed (pendingAt keyAllowed indent reversed cursor.mark) cursor indent
        indents reversed) := by
  cases keyAllowed <;> rfl

/-! ## Between tokens -/

/-- Spaces are gone over up to the next token or to the end of the line. -/
theorem skipSpace_succ {lexer : Lexer} {fuel : Nat} (n : Nat)
    (solid : ∀ c ∈ rest.head?, isSpaceOrTab c = false) (noComment : rest.head? ≠ some '#')
    (noOrderMark : rest.head? ≠ some byteOrderMark) :
    skipSpace (fuel + 1) { lexer with cursor := ⟨spaces n ++ rest, mark⟩ } =
      if (⟨rest, mark.advance (spaces n)⟩ : Cursor).atBreak then
        skipSpace fuel { lexer with
          cursor := (⟨rest, mark.advance (spaces n)⟩ : Cursor).lineEnd.2
          keyAllowed := lexer.keyAllowed || !lexer.inFlow }
      else { lexer with cursor := ⟨rest, mark.advance (spaces n)⟩ } := by
  have noMark : (spaces n ++ rest).head? ≠ some byteOrderMark := by
    cases n with
    | zero => exact noOrderMark
    | succ n => exact fun same => absurd (Option.some.inj same) (by decide)
  have spans (tabs : Bool) : (⟨spaces n ++ rest, mark⟩ : Cursor).span
      (fun c => c == ' ' || (tabs && c == '\t')) =
        (spaces n, ⟨rest, mark.advance (spaces n)⟩) := by
    have every : ∀ c ∈ spaces n, (c == ' ' || (tabs && c == '\t')) = true := by
      intro c member
      rw [List.eq_of_mem_replicate member]
      rfl
    have stops : ∀ c ∈ rest.head?, (c == ' ' || (tabs && c == '\t')) = false := by
      intro c head
      have other : c ≠ ' ' ∧ c ≠ '\t' := by simpa [isSpaceOrTab] using solid c head
      simp [other]
    rw [Cursor.span, List.takeWhile_append_of_pos every, List.dropWhile_append_of_pos every]
    cases rest with
    | nil => simp
    | cons c rest => simp [stops c rfl]
  have comment : (⟨rest, mark.advance (spaces n)⟩ : Cursor).skipComment =
      ⟨rest, mark.advance (spaces n)⟩ := if_neg noComment
  rw [skipSpace]
  simp only [Cursor.next?_mk, noMark, decide_false, Bool.and_false, Bool.false_eq_true,
    ↓reduceIte, spans, comment]
  rfl

theorem skipSpace_spaces {lexer : Lexer} {fuel : Nat} (opens : Opens rest) (n : Nat) :
    skipSpace (fuel + 1) { lexer with cursor := ⟨spaces n ++ rest, mark⟩ } =
      { lexer with cursor := ⟨rest, mark.advance (spaces n)⟩ } := by
  have onToken : (⟨rest, mark.advance (spaces n)⟩ : Cursor).atBreak = false := by
    cases rest with
    | nil => rfl
    | cons c rest => exact (opens.solid c rfl).2
  rw [skipSpace_succ n (fun c head => (opens.solid c head).1) opens.noComment opens.noOrderMark,
    onToken, if_neg Bool.false_ne_true]

theorem skipSpace_of_opens {lexer : Lexer} {fuel : Nat} (opens : Opens lexer.cursor.rest) :
    skipSpace (fuel + 1) lexer = lexer :=
  skipSpace_spaces opens 0

/-- Behind a line end a key may start. -/
theorem skipSpace_lineEnd {fuel emptyLines column : Nat}
    (next : NextLine behind emptyLines column rest) (enough : behind.length + 1 < fuel) :
    skipSpace fuel (stand keyAllowed pending ⟨'\n' :: behind, mark⟩ indent indents reversed) =
      stand true pending ⟨rest, mark.below emptyLines column⟩ indent indents reversed := by
  have lineFeed (fuel : Nat) (keyAllowed : Bool) (more : List Char) (mark : Mark) :
      skipSpace (fuel + 1) (stand keyAllowed pending ⟨'\n' :: more, mark⟩ indent indents
        reversed) = skipSpace fuel (stand true pending ⟨more, mark.nextLine 1⟩ indent indents
          reversed) := by
    have goesOn := @skipSpace_succ ('\n' :: more) mark (stand keyAllowed pending ⟨[], mark⟩ indent
      indents reversed) fuel 0 (by rintro c ⟨⟩; rfl) (by simp)
      fun same => absurd (Option.some.inj same) (by decide)
    have allowed : ((stand keyAllowed pending ⟨[], mark⟩ indent indents reversed).keyAllowed ||
        !(stand keyAllowed pending ⟨[], mark⟩ indent indents reversed).inFlow) = true :=
      Bool.or_true keyAllowed
    rw [allowed] at goesOn
    exact goesOn
  have opens := next.toOpens
  rw [next.eq] at enough ⊢
  clear next
  induction emptyLines generalizing keyAllowed mark fuel with
  | zero =>
      obtain ⟨fuel, rfl⟩ := Nat.exists_eq_add_of_le' (show 2 ≤ fuel by omega)
      have indentation : skipSpace (fuel + 1) (stand true pending
          ⟨spaces column ++ rest, mark.nextLine 1⟩ indent indents reversed) =
            stand true pending ⟨rest, (mark.nextLine 1).advance (spaces column)⟩ indent indents
              reversed :=
        @skipSpace_spaces rest (mark.nextLine 1) (stand true pending ⟨[], mark⟩ indent indents
          reversed) fuel opens column
      rw [List.replicate_zero, List.nil_append, lineFeed, indentation, Mark.advance_spaces]
      simp only [Mark.nextLine, Mark.below, Nat.zero_add, Nat.add_zero]
  | succ emptyLines ih =>
      obtain ⟨fuel, rfl⟩ := Nat.exists_eq_add_of_le' (show 1 ≤ fuel by omega)
      rw [List.replicate_succ, List.cons_append] at enough ⊢
      rw [lineFeed, ih (Nat.lt_of_succ_lt_succ enough)]
      simp only [Mark.nextLine, Mark.below, Nat.add_comm, Nat.add_left_comm]

/-! ## One token -/

theorem unindentTo_of_le {lexer : Lexer} {column : Int}
    (inside : lexer.inFlow = true ∨ lexer.indent ≤ column) : lexer.unindentTo column = lexer := by
  cases flow : lexer.inFlow with
  | true => simp [unindentTo, flow]
  | false =>
      rw [flow] at inside
      have less := inside.resolve_left Bool.false_ne_true
      cases outer : lexer.indents with
      | nil => simp [unindentTo, flow, outer, unindent]
      | cons outer indents => simp [unindentTo, flow, unindent, outer, Int.not_lt.mpr less]

/-- Read the token at the cursor, or find that there is none. -/
def fetchHere (lexer : Lexer) : Except SyntaxError Lexer :=
  match lexer.cursor.next? with
  | none => lexer.fetchEnd
  | some c => lexer.fetchAt c

theorem fetch_eq {lexer next dropped : Lexer}
    (skipped : skipSpace (lexer.cursor.rest.length + 1) lexer = next)
    (fresh : next.dropStale = .ok dropped) :
    lexer.fetch = (dropped.unindentTo dropped.mark.column).fetchHere := by
  simp only [fetch, skipped, fresh, bind, Except.bind]
  rfl

/-- On the first character of a token the token is read. -/
theorem fetch_of_opens {lexer : Lexer} {c : Char} (head : lexer.cursor.rest.head? = some c)
    (opens : Opens lexer.cursor.rest) (fresh : lexer.dropStale = .ok lexer)
    (inside : lexer.inFlow = true ∨ lexer.indent ≤ lexer.mark.column) :
    lexer.fetch = lexer.fetchAt c := by
  rw [fetch_eq (skipSpace_of_opens opens) fresh, unindentTo_of_le inside, fetchHere, Cursor.next?,
    head]

theorem fetch_stand_of_head {c : Char} (head : rest.head? = some c) (opens : Opens rest)
    (inside : indent ≤ mark.column) :
    (stand keyAllowed none ⟨rest, mark⟩ indent indents reversed).fetch =
      (stand keyAllowed none ⟨rest, mark⟩ indent indents reversed).fetchAt c :=
  fetch_of_opens head opens dropStale_none (.inr inside)

theorem fetch_stand (opens : Opens rest) :
    (stand keyAllowed none ⟨rest, mark⟩ indent indents reversed).fetch =
      ((stand keyAllowed none ⟨rest, mark⟩ indent indents reversed).unindentTo
        mark.column).fetchHere :=
  fetch_eq (skipSpace_of_opens opens) dropStale_none

theorem fetch_spaces (opens : Opens rest) (n : Nat) :
    (stand keyAllowed none ⟨spaces n ++ rest, mark⟩ indent indents reversed).fetch =
      (stand keyAllowed none ⟨rest, mark.advance (spaces n)⟩ indent indents reversed).fetch := by
  have indentation (fuel : Nat) : skipSpace (fuel + 1)
      (stand keyAllowed none ⟨spaces n ++ rest, mark⟩ indent indents reversed) =
        stand keyAllowed none ⟨rest, mark.advance (spaces n)⟩ indent indents reversed :=
    @skipSpace_spaces rest mark (stand keyAllowed none ⟨[], mark⟩ indent indents reversed) fuel
      opens n
  rw [fetch_eq (indentation _) dropStale_none, fetch_stand opens]
  rfl

/-- At the end of a line the lexer goes on at the next one, and gives up the pending key. -/
theorem fetch_lineEnd {emptyLines column : Nat} (optional : Optional pending mark.line)
    (next : NextLine behind emptyLines column rest) :
    (stand keyAllowed pending ⟨'\n' :: behind, mark⟩ indent indents reversed).fetch =
      (stand true none ⟨rest, mark.below emptyLines column⟩ indent indents reversed).fetch := by
  have later : mark.line < (mark.below emptyLines column).line := by
    simp only [Mark.below]
    omega
  rw [fetch_eq (skipSpace_lineEnd next (Nat.lt_succ_self _)) (dropStale_stand optional later),
    fetch_stand next.toOpens]
  rfl

/-- A block collection ends where the indentation is less. -/
theorem fetch_less {outer : Int} (opens : Opens rest) (less : mark.column < indent) :
    (stand true none ⟨rest, mark⟩ indent (outer :: indents) reversed).fetch =
      (stand true none ⟨rest, mark⟩ outer indents (⟨.blockEnd, mark, mark⟩ :: reversed)).fetch := by
  have ended : (stand true none ⟨rest, mark⟩ indent (outer :: indents) reversed).unindentTo
      mark.column = (stand true none ⟨rest, mark⟩ outer indents
        (⟨.blockEnd, mark, mark⟩ :: reversed)).unindentTo mark.column := by
    simp only [unindentTo, inFlow_stand]
    exact if_pos less
  rw [fetch_stand opens, ended, fetch_stand opens]

/-! ## Steps -/

/-- The lexer gets from a state to another one. -/
inductive Steps : Lexer → Lexer → Prop where
  | refl (lexer : Lexer) : Steps lexer lexer
  /-- It reads a token. -/
  | read {first second last : Lexer} : first.fetch.bind dropStale = .ok second →
      second.ended = false → second.cursor.rest.length < first.cursor.rest.length →
      Steps second last → Steps first last
  /-- What it does next is what it would do later on. -/
  | pass {first second last : Lexer} : first.fetch = second.fetch →
      second.cursor.rest.length ≤ first.cursor.rest.length → Steps second last → Steps first last

theorem Steps.trans {first second last : Lexer} (steps : Steps first second)
    (more : Steps second last) : Steps first last := by
  induction steps with
  | refl => exact more
  | read fetched goesOn shorter _ ih => exact .read fetched goesOn shorter (ih more)
  | pass same shorter _ ih => exact .pass same shorter (ih more)

theorem Steps.of_read {first second : Lexer} (fetched : first.fetch.bind dropStale = .ok second)
    (goesOn : second.ended = false)
    (shorter : second.cursor.rest.length < first.cursor.rest.length) : Steps first second :=
  .read fetched goesOn shorter (.refl second)

theorem Steps.of_pass {first second : Lexer} (same : first.fetch = second.fetch)
    (shorter : second.cursor.rest.length ≤ first.cursor.rest.length) : Steps first second :=
  .pass same shorter (.refl second)

/-- A run goes through the states and ends where the last one ends. -/
theorem run_of_steps {first last : Lexer} {tokens : List Token} (steps : Steps first last)
    (ended : ∀ fuel, last.cursor.rest.length < fuel → run fuel last = ⟨tokens, none⟩)
    (fuel : Nat) (enough : first.cursor.rest.length < fuel) : run fuel first = ⟨tokens, none⟩ := by
  induction steps generalizing fuel with
  | refl => exact ended fuel enough
  | read fetched goesOn shorter _ ih =>
      obtain ⟨fuel, rfl⟩ := Nat.exists_eq_add_of_lt enough
      simp only [run, fetched, goesOn, Bool.false_eq_true, ↓reduceIte]
      exact ih ended _ (by omega)
  | @pass first second last same shorter _ ih =>
      have later := ih ended fuel (by omega)
      obtain ⟨fuel, rfl⟩ := Nat.exists_eq_add_of_lt enough
      rw [run, ← same] at later
      rw [run]
      split at later
      next => cases later
      next => exact later

/-! ## Scalars -/

/-- Where a plain scalar starts the lexer reads one. -/
theorem fetchAt_plain {lexer : Lexer} {c : Char} {cs tail : List Char}
    (plain : IsPlain (c :: cs)) (other : tail.head? ≠ some '-' ∧ tail.head? ≠ some '.')
    (outside : lexer.inFlow = false) (rest : lexer.cursor.rest = c :: cs ++ tail) :
    lexer.fetchAt c = lexer.fetchPlainScalar := by
  have noIndicator : lexer.cursor.atIndicator = false := by
    have free := plain.atIndicator_eq_false lexer.cursor.mark other
    rw [← rest] at free
    exact free
  have start := plain.start
  simp only [Style.startsWithIndicator, Bool.or_eq_false_iff] at start
  obtain ⟨⟨⟨special, dash⟩, -⟩, -⟩ := start
  have blank := (plain.words.solid [] c rfl).1
  have noBreak := (plain.words.solid [] c rfl).2
  have separated (isDash : "?:-".toList.contains c = true) : lexer.cursor.separatorAt 1 = false ∧
      (lexer.cursor.rest[1]?.map isSpaceOrTab).getD false = false := by
    rw [isDash, Bool.true_and] at dash
    cases cs with
    | nil => cases dash
    | cons d ds =>
        have solid : (isSpaceOrTab d = false ∧ isBreak d = false) ∧ d ≠ '\x00' := by
          simpa [isSeparator, and_assoc] using dash
        simp [Cursor.separatorAt, rest, solid]
  have others : c ≠ '#' ∧ c ≠ ',' ∧ c ≠ '[' ∧ c ≠ ']' ∧ c ≠ '\x7b' ∧ c ≠ '\x7d' ∧ c ≠ '&' ∧
      c ≠ '*' ∧ c ≠ '!' ∧ c ≠ '|' ∧ c ≠ '>' ∧ c ≠ '\'' ∧ c ≠ '"' ∧ c ≠ '%' ∧ c ≠ '@' ∧
      c ≠ '\x60' := by
    simpa using special
  by_cases isDash : "?:-".toList.contains c = true
  · obtain ⟨inside, noBlank⟩ := separated isDash
    have known : c = '?' ∨ c = ':' ∨ c = '-' := by simpa using isDash
    rcases known with rfl | rfl | rfl <;>
      simp [fetchAt, noIndicator, outside, inside, startsPlain, noBlank]
  · have noDash : c ≠ '?' ∧ c ≠ ':' ∧ c ≠ '-' := by simpa using isDash
    simp [fetchAt, noIndicator, outside, startsPlain, blank, noBreak, noDash, others]

/-- A piece of a line from which tokens of the kinds are read. -/
structure OnLine (cs tail : List Char) (kinds : List TokenKind) : Prop where
  opens : Opens (cs ++ tail)
  steps : ∀ (keyAllowed : Bool) (indent : Int) (indents : List Int) (reversed : List Token)
    (mark : Mark), indent ≤ mark.column →
    indent < mark.column ∨ (mark.advance cs).index ≤ mark.index + longestPending →
    ∃ tokens pending, tokens.map Token.kind = kinds.reverse ∧
      Kept pending keyAllowed indent reversed mark (mark.advance cs) ∧
      Steps (stand keyAllowed none ⟨cs ++ tail, mark⟩ indent indents reversed)
        (stand false pending ⟨tail, mark.advance cs⟩ indent indents (tokens ++ reversed))

theorem fetchPlainScalar_stand {scalar : Token.PlainScalar}
    (scanned : Token.plainScalar false indent cursor = .ok scalar) :
    (stand keyAllowed none cursor indent indents reversed).fetchPlainScalar =
      .ok (stand scalar.broken (pendingAt keyAllowed indent reversed cursor.mark) scalar.cursor
        indent indents
        (⟨.scalar (String.ofList scalar.text) .plain, cursor.mark, scalar.last⟩ :: reversed)) := by
  rw [fetchPlainScalar, markPending_stand]
  change Except.bind (Token.plainScalar false indent cursor) _ = _
  rw [scanned]
  rfl

/-- A plain scalar in front of a colon. -/
theorem onLine_plain {cs after : List Char} (plain : IsPlain cs)
    (ends : Token.EndsWord (':' :: after)) :
    OnLine cs (':' :: after) [.scalar (String.ofList cs) .plain] where
  opens := plain.opens _
  steps := by
    intro keyAllowed indent indents reversed mark inside free
    have other : (':' :: after).head? ≠ some '-' ∧ (':' :: after).head? ≠ some '.' := by simp
    have scanned := Token.plainScalar_of_colon plain.words
      (plain.atIndicator_eq_false mark other) plain.head_ne inside ends
    obtain ⟨c, more, rfl, -⟩ := plain.words.exists_cons
    obtain ⟨pending, kept, dropped⟩ := @exists_kept keyAllowed indent reversed (':' :: after) mark
      (mark.advance (c :: more)) false indents
      (⟨.scalar (String.ofList (c :: more)) .plain, mark, mark.advance (c :: more)⟩ :: reversed)
      rfl free
    refine ⟨[⟨.scalar (String.ofList (c :: more)) .plain, mark, mark.advance (c :: more)⟩],
      pending, rfl, kept, .of_read ?_ rfl ?_⟩
    · rw [fetch_stand_of_head rfl (plain.opens _) inside, fetchAt_plain plain other rfl rfl,
        fetchPlainScalar_stand scanned]
      exact dropped
    · simp only [stand, List.length_append, List.length_cons]
      omega

/-- A plain scalar in front of a line end. -/
theorem steps_plain {cs : List Char} {emptyLines column : Nat} (plain : IsPlain cs)
    (next : NextLine behind emptyLines column rest) (less : column ≤ indent)
    (inside : indent < mark.column) :
    ∃ token : Token, token.kind = .scalar (String.ofList cs) .plain ∧
      Steps (stand keyAllowed none ⟨cs ++ '\n' :: behind, mark⟩ indent indents reversed)
        (stand true none ⟨rest, (mark.advance cs).below emptyLines column⟩ indent indents
          (token :: reversed)) := by
  have other : ('\n' :: behind).head? ≠ some '-' ∧ ('\n' :: behind).head? ≠ some '.' := by simp
  have inside' : indent ≤ mark.column := Int.le_of_lt inside
  have scanned := Token.plainScalar_of_lineEnd plain.words next less
    (plain.atIndicator_eq_false mark other) plain.head_ne inside'
  obtain ⟨c, more, rfl, -⟩ := plain.words.exists_cons
  refine ⟨⟨.scalar (String.ofList (c :: more)) .plain, mark, mark.advance (c :: more)⟩, rfl,
    .of_read ?_ rfl ?_⟩
  · rw [fetch_stand_of_head rfl (plain.opens _) inside', fetchAt_plain plain other rfl rfl,
      fetchPlainScalar_stand scanned]
    have later : mark.line < ((mark.advance (c :: more)).below emptyLines column).line := by
      simp only [Mark.below, Mark.line_advance]
      omega
    exact dropStale_stand (optional_pendingAt inside) later
  · have shorter : rest.length ≤ behind.length := by
      rw [next.eq, List.length_append, List.length_append]
      omega
    simp only [stand, List.length_append, List.length_cons]
    omega

theorem fetchQuotedScalar_stand {single : Bool} {text : List Char} {after : Cursor}
    (scanned : Token.quotedScalar single cursor = .ok (text, after)) :
    (stand keyAllowed none cursor indent indents reversed).fetchQuotedScalar single =
      .ok (stand false (pendingAt keyAllowed indent reversed cursor.mark) after indent indents
        (⟨.scalar (String.ofList text) .quoted, cursor.mark, after.mark⟩ :: reversed)) := by
  rw [fetchQuotedScalar, markPending_stand]
  change Except.bind (Token.quotedScalar single cursor) _ = _
  rw [scanned]
  rfl

/-- A scalar between quotes. -/
theorem onLine_quoted {single : Bool} {cs tail text : List Char}
    (head : cs.head? = some (Token.quote single))
    (scanned : ∀ mark, Token.quotedScalar single ⟨cs ++ tail, mark⟩ =
      .ok (text, ⟨tail, mark.advance cs⟩)) :
    OnLine cs tail [.scalar (String.ofList text) .quoted] := by
  obtain ⟨more, rfl⟩ := List.head?_eq_some_iff.mp head
  have opens : Opens (Token.quote single :: more ++ tail) := by
    cases single <;> exact .of_head _ (by decide)
  refine ⟨opens, fun keyAllowed indent indents reversed mark inside free => ?_⟩
  have fetched : (stand keyAllowed none ⟨Token.quote single :: more ++ tail, mark⟩ indent indents
      reversed).fetchAt (Token.quote single) = (stand keyAllowed none
        ⟨Token.quote single :: more ++ tail, mark⟩ indent indents reversed).fetchQuotedScalar
          single := by
    cases single <;> simp [fetchAt, stand, Cursor.atIndicator, Cursor.startsWith, Token.quote]
  obtain ⟨pending, kept, dropped⟩ := @exists_kept keyAllowed indent reversed tail mark
    (mark.advance (Token.quote single :: more)) false indents
    (⟨.scalar (String.ofList text) .quoted, mark, mark.advance (Token.quote single :: more)⟩ ::
      reversed) rfl free
  refine ⟨[⟨.scalar (String.ofList text) .quoted, mark,
    mark.advance (Token.quote single :: more)⟩], pending, rfl, kept, .of_read ?_ rfl ?_⟩
  · rw [fetch_stand_of_head rfl opens inside, fetched,
      fetchQuotedScalar_stand (scanned mark)]
    exact dropped
  · simp only [stand, List.length_append, List.length_cons]
    omega

/-- An empty flow collection. -/
theorem onLine_flow {opening closing : Char} {starts ends : TokenKind} {tail : List Char}
    (opens : Opens (opening :: closing :: tail)) (closes : Opens (closing :: tail))
    (size : opening.utf8Size + closing.utf8Size ≤ longestPending)
    (fetchStart : ∀ lexer : Lexer, lexer.cursor.rest = opening :: closing :: tail →
      lexer.fetchAt opening = lexer.fetchFlowStart starts)
    (fetchEnd : ∀ lexer : Lexer, lexer.cursor.rest = closing :: tail →
      lexer.fetchAt closing = lexer.fetchFlowEnd ends) :
    OnLine [opening, closing] tail [starts, ends] := by
  refine ⟨opens, fun keyAllowed indent indents reversed mark inside free => ?_⟩
  let first : Token := ⟨starts, mark, mark.advance [opening]⟩
  let second : Token := ⟨ends, mark.advance [opening], mark.advance [opening, closing]⟩
  let key := pendingAt keyAllowed indent reversed mark
  let inner : Lexer :=
    ⟨⟨closing :: tail, mark.advance [opening]⟩, indent, indents, true, [none, key],
      first :: reversed, reversed.length + 1, false⟩
  have innerFresh : inner.dropStale = .ok inner := by
    refine dropStale_of_fresh ?_
    rintro place (_ | ⟨_, (_ | ⟨_, ⟨⟩⟩)⟩)
    · intro key pending
      cases pending
    · exact isStale_pendingAt rfl (by simp [Lexer.mark, inner, Mark.advance]; omega)
  have outerFresh : (stand false key ⟨tail, mark.advance [opening, closing]⟩ indent indents
      ([second, first] ++ reversed)).dropStale = .ok (stand false key
        ⟨tail, mark.advance [opening, closing]⟩ indent indents ([second, first] ++ reversed)) := by
    refine dropStale_of_fresh ?_
    rintro place (_ | ⟨_, ⟨⟩⟩)
    exact isStale_pendingAt rfl (by simp [Lexer.mark, stand, Mark.advance]; omega)
  refine ⟨[second, first], key, rfl, .inl rfl, @Steps.read _ inner _ ?_ rfl ?_
    (.of_read ?_ rfl ?_)⟩
  · rw [List.cons_append, List.cons_append, List.nil_append,
      fetch_stand_of_head rfl opens inside, fetchStart _ rfl, fetchFlowStart, markPending_stand]
    exact innerFresh
  · simp [inner, stand]
  · rw [fetch_of_opens rfl closes innerFresh (.inl rfl), fetchEnd _ rfl]
    exact outerFresh
  · simp [inner, stand]

theorem onLine_emptySequence (tail : List Char) :
    OnLine ['[', ']'] tail [.flowSequenceStart, .flowSequenceEnd] :=
  onLine_flow (.of_head '[' (by decide)) (.of_head ']' (by decide)) (by decide)
    (fun lexer rest => by simp [fetchAt, Cursor.atIndicator, Cursor.startsWith, rest])
    (fun lexer rest => by simp [fetchAt, Cursor.atIndicator, Cursor.startsWith, rest])

theorem onLine_emptyMapping (tail : List Char) :
    OnLine ['\x7b', '\x7d'] tail [.flowMappingStart, .flowMappingEnd] :=
  onLine_flow (.of_head '\x7b' (by decide)) (.of_head '\x7d' (by decide)) (by decide)
    (fun lexer rest => by simp [fetchAt, Cursor.atIndicator, Cursor.startsWith, rest])
    (fun lexer rest => by simp [fetchAt, Cursor.atIndicator, Cursor.startsWith, rest])

theorem fetchBlockScalar_stand {scalar : Token.BlockScalar}
    (scanned : Token.blockScalar true indent cursor = .ok scalar) :
    (stand keyAllowed none cursor indent indents reversed).fetchBlockScalar true =
      .ok (stand true none scalar.cursor indent indents
        (⟨.scalar (String.ofList scalar.text) .quoted, cursor.mark, scalar.last⟩ :: reversed)) := by
  rw [fetchBlockScalar]
  change Except.bind (Token.blockScalar true indent cursor) _ = _
  rw [scanned]
  rfl

/-- A literal block. -/
theorem exists_steps_block {cs : List Char} {n emptyLines column : Nat} (multiline : '\n' ∈ cs)
    (feeds : ∀ c ∈ cs, isBreak c = true → c = '\n') (tabFree : '\t' ∉ cs)
    (next : NextLine behind emptyLines column rest) (less : column ≤ n) (inside : n ≤ mark.column)
    (keeps : chompingIndicator cs = ['+'] → emptyLines = 0) :
    ∃ token : Token, ∃ place, token.kind = .scalar (String.ofList cs) .quoted ∧
      place.column = column ∧
      Steps (stand keyAllowed none ⟨literalBlock (spaces (n + 2)) cs ++ behind, mark⟩ n indents
          reversed) (stand true none ⟨rest, place⟩ n indents (token :: reversed)) := by
  obtain ⟨last, place, scanned, column_eq, -⟩ :=
    @Token.exists_blockScalar mark rest behind emptyLines column cs n multiline feeds tabFree next
      less keeps
  obtain ⟨more, written⟩ : ∃ more, literalBlock (spaces (n + 2)) cs ++ behind = '|' :: more := by
    simp only [literalBlock, List.append_assoc, List.cons_append, List.nil_append, List.cons.injEq,
      true_and, exists_eq']
  have opens : Opens (literalBlock (spaces (n + 2)) cs ++ behind) := by
    rw [written]
    exact .of_head '|' (by decide)
  refine ⟨⟨.scalar (String.ofList cs) .quoted, mark, last⟩, place, rfl, column_eq,
    .of_read ?_ rfl ?_⟩
  · have fetched : (stand keyAllowed none ⟨literalBlock (spaces (n + 2)) cs ++ behind, mark⟩ n
        indents reversed).fetchAt '|' = .ok (stand true none ⟨rest, place⟩ n indents
          (⟨.scalar (String.ofList cs) .quoted, mark, last⟩ :: reversed)) := by
      have noIndicator : (⟨literalBlock (spaces (n + 2)) cs ++ behind, mark⟩ : Cursor).atIndicator =
          false := by
        rw [written]
        simp [Cursor.atIndicator, Cursor.startsWith]
      have chosen (lexer : Lexer) (flow : lexer.inFlow = false)
          (free : lexer.cursor.atIndicator = false) :
          lexer.fetchAt '|' = lexer.fetchBlockScalar true := by
        simp [fetchAt, free, flow]
      rw [chosen _ rfl noIndicator, fetchBlockScalar_stand scanned]
    rw [fetch_stand_of_head (by rw [written]; rfl) opens (Int.ofNat_le.mpr inside), fetched]
    exact dropStale_none
  · have shorter : rest.length ≤ behind.length := by
      rw [next.eq, List.length_append, List.length_append]
      omega
    simp only [stand, literalBlock, List.length_append, List.length_cons]
    omega

/-! ## Indicators -/

/-- The kinds of tokens that were read last first. -/
def kinds (reversed : List Token) : List TokenKind := (reversed.map Token.kind).reverse

@[simp] theorem kinds_cons (token : Token) :
    kinds (token :: reversed) = kinds reversed ++ [token.kind] := by
  simp [kinds]

@[simp] theorem kinds_append (later earlier : List Token) :
    kinds (later ++ earlier) = kinds earlier ++ kinds later := by
  simp [kinds]

/-- A block collection on a column goes on, or starts there. -/
inductive Opening (kind : TokenKind) (column : Nat) :
    Int → List Int → List TokenKind → List Int → Prop where
  | goesOn (indents : List Int) : Opening kind column column indents [] indents
  | starts {indent : Int} (indents : List Int) : indent < column →
      Opening kind column indent indents [kind] (indent :: indents)

variable {opened : List TokenKind} {indents' : List Int} {after : List Char}

theorem Opening.indent_le {kind : TokenKind} {column : Nat}
    (opening : Opening kind column indent indents opened indents') : indent ≤ column := by
  cases opening with
  | goesOn => exact Int.le_refl _
  | starts _ less => exact Int.le_of_lt less

theorem exists_startBlock {kind : TokenKind} (problem : Problem)
    (opening : Opening kind mark.column indent indents opened indents') :
    ∃ reversed', kinds reversed' = kinds reversed ++ opened ∧
      (stand true none ⟨rest, mark⟩ indent indents reversed).startBlock kind problem =
        .ok (stand true none ⟨rest, mark⟩ mark.column indents' reversed') := by
  cases opening with
  | goesOn =>
      refine ⟨reversed, (List.append_nil _).symm, ?_⟩
      simp [startBlock, inFlow, stand, indentTo, Lexer.mark]
  | starts _ less =>
      refine ⟨⟨kind, mark, mark⟩ :: reversed, kinds_cons _, ?_⟩
      simp [startBlock, inFlow, stand, indentTo, Lexer.mark, less, insert]

/-- A blank or a line end stands here. -/
def Separates (after : List Char) : Prop :=
  ∃ c rest, after = c :: rest ∧ (isSpaceOrTab c = true ∨ isBreak c = true)

theorem Separates.endsWord (separates : Separates after) : Token.EndsWord (':' :: after) := by
  obtain ⟨c, rest, rfl, separator⟩ := separates
  exact ⟨':', c :: rest, rfl, .inr (.inr ⟨rfl, c, rest, rfl, separator⟩)⟩

theorem Separates.separatorAt {c : Char} (separates : Separates after) :
    (⟨c :: after, mark⟩ : Cursor).separatorAt 1 = true := by
  obtain ⟨d, rest, rfl, separator⟩ := separates
  simp [Cursor.separatorAt, separator]

theorem Separates.atIndicator {c : Char} (separates : Separates after) :
    (⟨c :: after, mark⟩ : Cursor).atIndicator = false := by
  obtain ⟨d, rest, rfl, separator⟩ := separates
  have noDash : d ≠ '-' ∧ d ≠ '.' := by
    constructor <;> rintro rfl <;> revert separator <;> decide
  simp [Cursor.atIndicator, Cursor.startsWith, noDash.1.symm, noDash.2.symm]

/-- A character that stands for an item, a key or a value is read, and its collection goes on or
starts there. -/
theorem exists_steps_mark {c : Char} {kind block : TokenKind} (problem : Problem)
    (opens : Opens (c :: after))
    (opening : Opening block mark.column indent indents opened indents')
    (fetches : ∀ started, (stand true none ⟨c :: after, mark⟩ indent indents reversed).startBlock
        block problem = .ok (stand true none ⟨c :: after, mark⟩ mark.column indents' started) →
      (stand true none ⟨c :: after, mark⟩ indent indents reversed).fetchAt c =
        .ok (stand true none ⟨after, mark.advance [c]⟩ mark.column indents'
          (⟨kind, mark, mark.advance [c]⟩ :: started))) :
    ∃ reversed', kinds reversed' = kinds reversed ++ opened ++ [kind] ∧
      Steps (stand true none ⟨c :: after, mark⟩ indent indents reversed)
        (stand true none ⟨after, mark.advance [c]⟩ mark.column indents' reversed') := by
  obtain ⟨started, added, starts⟩ := @exists_startBlock indent indents reversed (c :: after) mark
    opened indents' block problem opening
  refine ⟨⟨kind, mark, mark.advance [c]⟩ :: started, ?_, .of_read ?_ rfl ?_⟩
  · rw [kinds_cons, added]
  · rw [fetch_stand_of_head rfl opens opening.indent_le, fetches started starts]
    exact dropStale_none
  · exact Nat.lt_succ_self _

/-- The dash of an item. -/
theorem exists_steps_dash
    (opening : Opening .blockSequenceStart mark.column indent indents opened indents')
    (separates : Separates after) :
    ∃ reversed', kinds reversed' = kinds reversed ++ opened ++ [.blockEntry] ∧
      Steps (stand true none ⟨'-' :: after, mark⟩ indent indents reversed)
        (stand true none ⟨after, mark.advance ['-']⟩ mark.column indents' reversed') := by
  refine exists_steps_mark .blockEntryNotAllowed (.of_head '-' (by decide)) opening
    fun started starts => ?_
  have chosen (lexer : Lexer) (free : lexer.cursor.atIndicator = false)
      (separator : lexer.cursor.separatorAt 1 = true) :
      lexer.fetchAt '-' = lexer.fetchBlockEntry := by
    simp [fetchAt, free, separator]
  rw [chosen _ separates.atIndicator separates.separatorAt, fetchBlockEntry, starts]
  rfl

/-- The question mark of a long key. -/
theorem exists_steps_question
    (opening : Opening .blockMappingStart mark.column indent indents opened indents')
    (separates : Separates after) :
    ∃ reversed', kinds reversed' = kinds reversed ++ opened ++ [.key] ∧
      Steps (stand true none ⟨'?' :: after, mark⟩ indent indents reversed)
        (stand true none ⟨after, mark.advance ['?']⟩ mark.column indents' reversed') := by
  refine exists_steps_mark .keyNotAllowed (.of_head '?' (by decide)) opening
    fun started starts => ?_
  have chosen (lexer : Lexer) (free : lexer.cursor.atIndicator = false)
      (separator : lexer.cursor.separatorAt 1 = true) : lexer.fetchAt '?' = lexer.fetchKey := by
    simp [fetchAt, free, separator]
  rw [chosen _ separates.atIndicator separates.separatorAt, fetchKey, starts]
  rfl

theorem fetchAt_colon {lexer : Lexer} (free : lexer.cursor.atIndicator = false)
    (separator : lexer.cursor.separatorAt 1 = true) : lexer.fetchAt ':' = lexer.fetchValue := by
  simp [fetchAt, free, separator]

/-- The colon behind a long key, on a line of its own. -/
theorem exists_steps_colon (separates : Separates after) :
    ∃ reversed', kinds reversed' = kinds reversed ++ [.value] ∧
      Steps (stand true none ⟨':' :: after, mark⟩ mark.column indents reversed)
        (stand true none ⟨after, mark.advance [':']⟩ mark.column indents reversed') := by
  have goesOn : Opening .blockMappingStart mark.column mark.column indents [] indents :=
    .goesOn indents
  rw [← List.append_nil (kinds reversed)]
  refine exists_steps_mark .valueNotAllowed (.of_head ':' (by decide)) goesOn
    fun started starts => ?_
  rw [fetchAt_colon separates.atIndicator separates.separatorAt, fetchValue]
  simp only [stand] at starts ⊢
  rw [starts]
  rfl

/-- A token is put in front of those that were read last. -/
theorem insert_stand (tokens : List Token) (kind : TokenKind) :
    (stand keyAllowed pending cursor indent indents (tokens ++ reversed)).insert reversed.length
        kind mark =
      stand keyAllowed pending cursor indent indents
        (tokens ++ ⟨kind, mark, mark⟩ :: reversed) := by
  simp [insert, stand, Nat.add_assoc]

theorem fetchValue_stand {key : PendingKey} :
    (stand keyAllowed (some key) cursor indent indents reversed).fetchValue =
      .ok ({ ((stand keyAllowed (some key) cursor indent indents reversed).insert key.number .key
          key.mark).indentTo key.mark.column (some key.number) .blockMappingStart key.mark with
        pending := [none]
        keyAllowed := false }.emitChars .value 1) := rfl

/-- The colon of a pending key puts the key, and perhaps the start of its mapping, in front of
the tokens that were read since. -/
theorem exists_fetchValue (tokens : List Token) (required : Bool)
    (opening : Opening .blockMappingStart mark.column indent indents opened indents') :
    ∃ reversed',
      kinds reversed' = kinds reversed ++ (opened ++ .key :: (kinds tokens ++ [.value])) ∧
      (stand keyAllowed (some ⟨required, reversed.length, mark⟩) cursor indent indents
          (tokens ++ reversed)).fetchValue =
        .ok (stand false none (cursor.advance 1) mark.column indents' reversed') := by
  cases opening with
  | goesOn =>
      refine ⟨⟨.value, cursor.mark, (cursor.advance 1).mark⟩ ::
        (tokens ++ ⟨.key, mark, mark⟩ :: reversed), by simp, ?_⟩
      rw [fetchValue_stand, insert_stand]
      simp only [indentTo, stand, Int.lt_irrefl, decide_false, Bool.and_false,
        Bool.false_eq_true, ↓reduceIte]
      rfl
  | starts _ less =>
      refine ⟨⟨.value, cursor.mark, (cursor.advance 1).mark⟩ ::
        (tokens ++ ⟨.key, mark, mark⟩ :: ⟨.blockMappingStart, mark, mark⟩ :: reversed), by simp, ?_⟩
      have opened := @insert_stand keyAllowed (some ⟨required, reversed.length, mark⟩) cursor
        mark.column (indent :: indents) reversed mark (tokens ++ [⟨.key, mark, mark⟩])
          .blockMappingStart
      rw [fetchValue_stand, insert_stand, indentTo, if_pos (by simpa [inFlow, stand] using less)]
      rw [List.append_assoc, List.append_assoc] at opened
      exact congrArg (fun lexer : Lexer => Except.ok ({ lexer with
        pending := [none]
        keyAllowed := false }.emitChars .value 1)) opened

/-- A key on the line of its colon. -/
theorem exists_steps_key {cs : List Char} {keyKinds : List TokenKind}
    (onLine : OnLine cs (':' :: after) keyKinds) (separates : Separates after)
    (short : (mark.advance cs).index ≤ mark.index + longestPending)
    (opening : Opening .blockMappingStart mark.column indent indents opened indents') :
    ∃ reversed', kinds reversed' = kinds reversed ++ (opened ++ .key :: (keyKinds ++ [.value])) ∧
      Steps (stand true none ⟨cs ++ ':' :: after, mark⟩ indent indents reversed)
        (stand false none ⟨after, mark.advance (cs ++ [':'])⟩ mark.column indents' reversed') := by
  obtain ⟨tokens, pending, kinds_eq, kept, steps⟩ := onLine.steps true indent indents reversed mark
    opening.indent_le (.inr short)
  cases kept.eq_of_le short
  have fresh : (stand false (pendingAt true indent reversed mark) ⟨':' :: after, mark.advance cs⟩
      indent indents (tokens ++ reversed)).dropStale = .ok (stand false
        (pendingAt true indent reversed mark) ⟨':' :: after, mark.advance cs⟩ indent indents
          (tokens ++ reversed)) := by
    refine dropStale_of_fresh ?_
    rintro place (_ | ⟨_, ⟨⟩⟩)
    exact isStale_pendingAt rfl short
  have inside : indent ≤ (mark.advance cs).column := by
    have := opening.indent_le
    rw [Mark.column_advance]
    omega
  have fetched := @fetch_of_opens (stand false (pendingAt true indent reversed mark)
    ⟨':' :: after, mark.advance cs⟩ indent indents (tokens ++ reversed)) ':' rfl
    (.of_head ':' (by decide)) fresh (.inr inside)
  rw [fetchAt_colon separates.atIndicator separates.separatorAt] at fetched
  obtain ⟨reversed', added, decided⟩ := @exists_fetchValue false ⟨':' :: after, mark.advance cs⟩
    indent indents reversed mark opened indents' tokens (indent == mark.column) opening
  refine ⟨reversed', ?_, steps.trans (.of_read ?_ rfl (Nat.lt_succ_self _))⟩
  · have forward : kinds tokens = keyKinds := by rw [kinds, kinds_eq, List.reverse_reverse]
    rw [added, forward]
  · rw [fetched, pendingAt, if_pos rfl, decided, Mark.advance_append]
    exact dropStale_none

end Lexer

end FleetCompose.Yaml
