import MatrixCalculator.Proofs.Language.Pattern

/-! Tokens tile a source: each stands at its position and is the longest word of its pattern
there, none overlaps another, and nothing but gaps is left between them. A source has at most one
such tiling. The tokenizer finds it, or stops in front of the first character at which neither a
gap nor a word of any pattern begins. -/
namespace MatrixCalculator.Language

open MatrixCalculator.Text

def Token.finish (t : Token) : Nat :=
  t.position + t.lexeme.text.length

/-- The tokens lie over a source. The gaps lie where none of them does. -/
structure Tiles (source : List Char) (stream : TokenStream) : Prop where
  stop : stream.stop = source.length
  ascending : (stream.tokens.map (·.position) ++ [stream.stop]).Pairwise (· < ·)
  apart : stream.tokens.Pairwise fun t u => t.finish ≤ u.position
  slice : ∀ t ∈ stream.tokens,
    (source.drop t.position).take t.lexeme.text.length = t.lexeme.text
  longest : ∀ t ∈ stream.tokens,
    IsLongest t.lexeme.pattern t.lexeme.text (source.drop t.position)
  between : ∀ i c, source[i]? = some c →
    (∀ t ∈ stream.tokens, ¬(t.position ≤ i ∧ i < t.finish)) → isGap c = true

variable {position : Nat} {c : Char} {cs rest w : List Char} {lexeme : Lexeme} {t : Token}
  {tokens : List Token}

section FirstCharacters

theorem digit_range (digit : isDecimalDigit c = true) :
    (48 ≤ c.toNat ∧ c.toNat < 58) ∨ 1632 ≤ c.toNat := by
  have zeros : ∀ start ∈ digitZeros, start = 48 ∨ 1632 ≤ start := by decide
  obtain ⟨value, found⟩ := Option.isSome_iff_exists.mp digit
  obtain ⟨start, sought, _⟩ := Option.map_eq_some_iff.mp found
  have inside := List.find?_some sought
  simp only [Bool.and_eq_true, decide_eq_true_eq] at inside
  have start_range := zeros start (List.mem_of_find?_eq_some sought)
  omega

theorem nameStart_range (starts : isNameStart c = true) :
    58 ≤ c.toNat ∧ c.toNat < 1632 := by
  have classes : (decide (65 ≤ c.val ∧ c.val ≤ 90) || (97 ≤ c.val && c.val ≤ 122) ||
      c == '_') = true := starts
  simp only [Bool.or_eq_true, Bool.and_eq_true, decide_eq_true_eq, beq_iff_eq,
    UInt32.le_iff_toNat_le] at classes
  have code : c.val.toNat = c.toNat := rfl
  rw [code] at classes
  rcases classes with (upper | lower) | rfl
  · have bounds : 65 ≤ c.toNat ∧ c.toNat ≤ 90 := upper
    omega
  · have bounds : 97 ≤ c.toNat ∧ c.toNat ≤ 122 := lower
    omega
  · decide

theorem not_digit_of_nameStart (starts : isNameStart c = true) : isDecimalDigit c = false := by
  cases digit : isDecimalDigit c with
  | false => rfl
  | true =>
    have name := nameStart_range starts
    have number := digit_range digit
    omega

theorem symbol_begins (member : c ∈ symbols) :
    isDecimalDigit c = false ∧ c ≠ '.' ∧ isNameStart c = false ∧ c ≠ '\n' := by
  have all : symbols.all fun c =>
      !isDecimalDigit c && c != '.' && !isNameStart c && c != '\n' := by decide
  simpa [and_assoc] using List.all_eq_true.mp all c member

theorem numeral_begins (member : c :: w ∈ numeral) : isDecimalDigit c = true ∨ c = '.' := by
  obtain ⟨front, whole, exponent, _, same⟩ := member
  rcases mem_mantissa.mp whole with ⟨_ | ⟨d, digits⟩, fraction, _, all, _, rfl⟩ | ⟨some, all⟩
  · exact .inr (List.cons.inj same).1.symm
  · rw [← (List.cons.inj same).1]
    exact .inl (all d List.mem_cons_self)
  · obtain ⟨d, digits, rfl⟩ := List.exists_cons_of_ne_nil some
    rw [← (List.cons.inj same).1]
    exact .inl (all d List.mem_cons_self)

theorem digit_of_numeralText (some : numeralText (c :: rest) ≠ []) :
    isDecimalDigit c = true ∨ c = '.' := by
  obtain ⟨d, more, spelled⟩ := List.exists_cons_of_ne_nil some
  have begins := numeralText_isPrefix (c :: rest)
  rw [spelled] at begins
  rw [← (List.cons_prefix_cons.mp begins).1]
  exact numeral_begins (spelled ▸ numeralText_mem some)

theorem gap_begins (blank : isGap c = true) :
    isDecimalDigit c = false ∧ c ≠ '.' ∧ isNameStart c = false ∧ c ∉ symbols ∧ c ≠ '\n' := by
  simp only [isGap, Bool.or_eq_true, beq_iff_eq] at blank
  rcases blank with (rfl | rfl) | rfl <;> decide

/-- No word of a pattern begins with a gap. -/
theorem not_gap_of_pattern (member : c :: w ∈ lexeme.pattern) : isGap c = false := by
  by_contra gap
  obtain ⟨digit, point, starts, symbol, line⟩ := gap_begins (Bool.eq_true_of_not_eq_false gap)
  cases lexeme with
  | number text =>
    rcases numeral_begins member with other | other
    · rw [digit] at other
      contradiction
    · exact point other
  | name text =>
    obtain ⟨d, more, same, other, _⟩ := mem_identifier.mp member
    cases same
    rw [starts] at other
    contradiction
  | symbol text =>
    obtain ⟨d, holds, same⟩ := member
    cases same
    exact symbol (by simpa using holds)
  | lineBreak =>
    obtain ⟨d, holds, same⟩ := member
    cases same
    exact line (beq_iff_eq.mp holds)

end FirstCharacters

theorem IsLongest.unique {l : Language Char} {word other text : List Char}
    (longest : IsLongest l word text) (other_longest : IsLongest l other text) : word = other := by
  have same := Nat.le_antisymm (other_longest.longest word longest.mem longest.begins)
    (longest.longest other other_longest.mem other_longest.begins)
  exact (List.prefix_of_prefix_length_le longest.begins other_longest.begins same.le).eq_of_length
    same

/-- The tokenizer finds every lexeme that is the longest word of its pattern. -/
theorem lexeme?_of_isLongest (longest : IsLongest lexeme.pattern lexeme.text (c :: rest)) :
    lexeme? c rest = some lexeme := by
  have numeral_none (other : isDecimalDigit c = false) (plain : c ≠ '.') :
      numeralText (c :: rest) = [] := by
    by_contra some
    rcases digit_of_numeralText some with digit | point
    · rw [other] at digit
      contradiction
    · exact plain point
  unfold lexeme?
  dsimp only
  cases lexeme with
  | number text =>
    have some : numeralText (c :: rest) ≠ [] := by
      have longer := length_le_numeralText longest.mem longest.begins
      intro none
      rw [none] at longer
      exact numeral_ne_nil longest.mem (List.length_eq_zero_iff.mp (Nat.le_zero.mp longer))
    have same : text = numeralText (c :: rest) := longest.unique (isLongest_numeralText some)
    rw [if_pos (by simpa using some), same]
  | name text =>
    obtain ⟨d, more, spelled, starts, _⟩ := mem_identifier.mp longest.mem
    have begins := longest.begins
    rw [spelled] at begins
    obtain ⟨rfl, _⟩ := List.cons_prefix_cons.mp begins
    have point : d ≠ '.' := by
      rintro rfl
      contradiction
    rw [numeral_none (not_digit_of_nameStart starts) point, if_neg (by simp), if_pos starts]
    have same : text = d :: rest.takeWhile isNamePart :=
      longest.unique (isLongest_identifier starts)
    rw [same]
  | symbol d =>
    obtain ⟨_, holds, same⟩ := longest.mem
    cases same
    obtain ⟨rfl, _⟩ := List.cons_prefix_cons.mp longest.begins
    have member : d ∈ symbols := by simpa using holds
    obtain ⟨digit, point, starts, line⟩ := symbol_begins member
    rw [numeral_none digit point, if_neg (by simp), if_neg (by simp [starts]), if_neg line,
      if_pos member]
  | lineBreak =>
    obtain ⟨rfl, _⟩ := List.cons_prefix_cons.mp longest.begins
    rw [numeral_none (by decide) (by decide)]
    rfl

structure TilesFrom (source : List Char) (position : Nat) (tokens : List Token) : Prop where
  behind : ∀ t ∈ tokens, position ≤ t.position
  apart : tokens.Pairwise fun t u => t.finish ≤ u.position
  longest : ∀ t ∈ tokens, IsLongest t.lexeme.pattern t.lexeme.text (source.drop t.position)
  between : ∀ i c, position ≤ i → source[i]? = some c →
    (∀ t ∈ tokens, ¬(t.position ≤ i ∧ i < t.finish)) → isGap c = true

theorem IsLongest.lt_finish {text : List Char}
    (longest : IsLongest t.lexeme.pattern t.lexeme.text text) : t.position < t.finish :=
  Nat.lt_add_of_pos_right (List.length_pos_iff.mpr (pattern_ne_nil longest.mem))

namespace TilesFrom

variable {source front back : List Char}

theorem nil : TilesFrom source source.length [] where
  behind := by simp
  apart := .nil
  longest := by simp
  between i c behind there _ := by
    rw [List.getElem?_eq_none behind] at there
    contradiction

theorem gap_cons (here : source[position]? = some c) (blank : isGap c = true)
    (later : TilesFrom source (position + 1) tokens) : TilesFrom source position tokens where
  behind t member := Nat.le_of_succ_le (later.behind t member)
  apart := later.apart
  longest := later.longest
  between i d behind there uncovered := by
    rcases Nat.eq_or_lt_of_le behind with rfl | after
    · cases here.symm.trans there
      exact blank
    · exact later.between i d after there uncovered

theorem token_cons (longest : IsLongest t.lexeme.pattern t.lexeme.text (source.drop t.position))
    (later : TilesFrom source t.finish tokens) : TilesFrom source t.position (t :: tokens) where
  behind u member := by
    rcases List.mem_cons.mp member with rfl | member
    · exact Nat.le_refl _
    · exact Nat.le_trans longest.lt_finish.le (later.behind u member)
  apart := List.pairwise_cons.mpr ⟨later.behind, later.apart⟩
  longest := List.forall_mem_cons.mpr ⟨longest, later.longest⟩
  between i c behind there uncovered := by
    obtain ⟨outside, others⟩ := List.forall_mem_cons.mp uncovered
    exact later.between i c (Nat.le_of_not_lt fun inside => outside ⟨behind, inside⟩) there others

/-- Where no token stands, a gap does, and the rest is tiled behind it. -/
theorem of_gap (tiles : TilesFrom source position tokens) (here : source[position]? = some c)
    (none : ∀ t ∈ tokens, t.position ≠ position) :
    isGap c = true ∧ TilesFrom source (position + 1) tokens := by
  have behind (t : Token) (member : t ∈ tokens) : position < t.position :=
    Nat.lt_of_le_of_ne (tiles.behind t member) (none t member).symm
  refine ⟨tiles.between position c (Nat.le_refl _) here fun t member covers => ?_, behind,
    tiles.apart, tiles.longest,
    fun i d after => tiles.between i d (Nat.le_of_succ_le after)⟩
  exact Nat.not_le_of_lt (behind t member) covers.1

theorem of_token (tiles : TilesFrom source position (t :: tokens)) :
    TilesFrom source t.finish tokens where
  behind := (List.pairwise_cons.mp tiles.apart).1
  apart := (List.pairwise_cons.mp tiles.apart).2
  longest u member := tiles.longest u (List.mem_cons_of_mem t member)
  between i c after there uncovered := by
    have first := (tiles.longest t List.mem_cons_self).lt_finish
    have behind := tiles.behind t List.mem_cons_self
    refine tiles.between i c (by omega) there ?_
    exact List.forall_mem_cons.mpr ⟨fun covers => Nat.not_lt_of_le after covers.2, uncovered⟩

end TilesFrom

theorem CutInto.tilesFrom {front back : List Char}
    (cut : CutInto front.length back tokens) : TilesFrom (front ++ back) front.length tokens := by
  generalize start : front.length = position at cut
  induction cut generalizing front with
  | done =>
    subst start
    simpa using @TilesFrom.nil front
  | @gap position c rest tokens blank later ih =>
    have tiles := @ih (front ++ [c]) (by simp [start])
    rw [List.append_assoc, List.singleton_append] at tiles
    exact tiles.gap_cons (by simp [← start]) blank
  | @token position c body rest lexeme tokens solid found spelled later ih =>
    have tiles := @ih (front ++ c :: body) (by simp [start])
    rw [List.append_assoc, List.cons_append] at tiles
    have longest := isLongest_of_lexeme? found
    subst start
    refine @TilesFrom.token_cons ⟨lexeme, front.length⟩ _ _ ?_ ?_
    · rwa [List.drop_left]
    · rwa [Token.finish, spelled]

theorem TilesFrom.first_eq {source : List Char}
    (tiles : TilesFrom source position (t :: tokens)) {u : Token} (member : u ∈ t :: tokens)
    (here : u.position = position) : t.position = position := by
  rcases List.mem_cons.mp member with rfl | later
  · exact here
  · have first := (tiles.longest t List.mem_cons_self).lt_finish
    have behind := tiles.behind t List.mem_cons_self
    have apart := (List.pairwise_cons.mp tiles.apart).1 u later
    omega

theorem TilesFrom.cutInto {front back : List Char}
    (tiles : TilesFrom (front ++ back) front.length tokens) :
    CutInto front.length back tokens := by
  induction size : back.length using Nat.strongRecOn generalizing front back tokens with
  | ind n ih =>
    subst size
    rcases back with _ | ⟨c, rest⟩
    · rcases tokens with _ | ⟨t, tokens⟩
      · exact .done
      · -- No word is left for a token at the end.
        have begins := (tiles.longest t List.mem_cons_self).begins
        rw [List.append_nil, List.drop_eq_nil_of_le (tiles.behind t List.mem_cons_self)] at begins
        exact absurd (List.prefix_nil.mp begins)
          (pattern_ne_nil (tiles.longest t List.mem_cons_self).mem)
    · by_cases here : ∃ t ∈ tokens, t.position = front.length
      · obtain ⟨u, member, here⟩ := here
        obtain ⟨⟨lexeme, position⟩, later, rfl⟩ :=
          List.exists_cons_of_ne_nil (List.ne_nil_of_mem member)
        obtain rfl : position = front.length := tiles.first_eq member here
        have longest := tiles.longest _ List.mem_cons_self
        simp only [List.drop_left] at longest
        obtain ⟨d, body, spelled⟩ := List.exists_cons_of_ne_nil (pattern_ne_nil longest.mem)
        obtain ⟨behind, whole⟩ := longest.begins
        rw [spelled, List.cons_append] at whole
        obtain ⟨rfl, rfl⟩ := List.cons.inj whole
        refine .token (not_gap_of_pattern (spelled ▸ longest.mem)) (lexeme?_of_isLongest longest)
          spelled ?_
        have rest_tiles := tiles.of_token
        have finish : Token.finish ⟨lexeme, front.length⟩ = (front ++ d :: body).length := by
          simp [Token.finish, spelled]
        rw [finish, ← List.cons_append, ← List.append_assoc] at rest_tiles
        rw [← List.length_append]
        refine ih behind.length ?_ rest_tiles rfl
        simp only [List.length_cons, List.length_append]
        omega
      · have next : (front ++ c :: rest)[front.length]? = some c := by simp
        obtain ⟨blank, rest_tiles⟩ :=
          tiles.of_gap next fun t member same => here ⟨t, member, same⟩
        refine .gap blank ?_
        rw [← List.singleton_append, ← List.append_assoc] at rest_tiles
        have length : front.length + 1 = (front ++ [c]).length := by simp
        rw [length] at rest_tiles ⊢
        exact ih rest.length (Nat.lt_succ_self _) rest_tiles rfl

theorem tiles_iff {source : List Char} {stream : TokenStream} :
    Tiles source stream ↔ TilesFrom source 0 stream.tokens ∧ stream.stop = source.length := by
  constructor
  · intro tiles
    exact ⟨⟨fun t _ => Nat.zero_le _, tiles.apart, tiles.longest,
      fun i c _ => tiles.between i c⟩, tiles.stop⟩
  · rintro ⟨tiles, stop⟩
    refine ⟨stop, ?_, tiles.apart, fun t member => ?_, tiles.longest,
      fun i c => tiles.between i c (Nat.zero_le i)⟩
    · refine List.pairwise_append.mpr ⟨?_, List.pairwise_singleton _ _, ?_⟩
      · refine List.pairwise_map.mpr (tiles.apart.imp_of_mem fun first _ apart => ?_)
        exact Nat.lt_of_lt_of_le (tiles.longest _ first).lt_finish apart
      · intro p member q last
        obtain ⟨t, inside, rfl⟩ := List.mem_map.mp member
        rw [List.mem_singleton.mp last, stop]
        apply Nat.lt_of_not_le
        intro beyond
        have begins := (tiles.longest t inside).begins
        rw [List.drop_eq_nil_of_le beyond] at begins
        exact pattern_ne_nil (tiles.longest t inside).mem (List.prefix_nil.mp begins)
    · exact (List.prefix_iff_eq_take.mp (tiles.longest t member).begins).symm

theorem tokenize_eq_ok_iff_tiles {source : List Char} {stream : TokenStream} :
    tokenize source = .ok stream ↔ Tiles source stream := by
  rw [tokenize_eq_ok_iff, tiles_iff]
  exact and_congr_left' ⟨fun cut => @CutInto.tilesFrom _ [] source cut,
    fun tiles => @TilesFrom.cutInto _ [] source tiles⟩

/-- Where the tokenizer fails, what stands in front is cut, and nothing begins. -/
theorem tokensFrom_eq_error {fault : ParseFault} (failed : tokensFrom position cs = .error fault) :
    ∃ front c rest tokens, cs = front ++ c :: rest ∧ CutInto position front tokens ∧
      fault = ⟨.unexpectedCharacter c, position + front.length⟩ ∧ isGap c = false ∧
      lexeme? c rest = none := by
  fun_induction tokensFrom position cs with
  | case1 => contradiction
  | case2 position c rest blank ih =>
    obtain ⟨front, d, more, tokens, rfl, cut, rfl, solid, missing⟩ := ih failed
    refine ⟨c :: front, d, more, tokens, rfl, .gap blank cut, ?_, solid, missing⟩
    rw [List.length_cons, Nat.add_comm front.length, Nat.add_assoc]
  | case3 position c rest solid missing =>
    cases failed
    exact ⟨[], c, rest, [], rfl, .done, rfl, by simpa using solid, missing⟩
  | case4 position c rest solid lexeme found size =>
    rename_i ih
    cases read : tokensFrom (position + size) (rest.drop (size - 1)) with
    | ok later => rw [read] at failed; contradiction
    | error other =>
      rw [read] at failed
      cases failed
      obtain ⟨body, behind, rfl, spelled⟩ := exists_body found
      have length : size = (c :: body).length := congrArg List.length spelled
      have more : (body ++ behind).drop (size - 1) = behind := by simp [length]
      obtain ⟨front, d, rest, tokens, same, cut, rfl, stops, missing⟩ := ih read
      rw [more] at same
      subst same
      rw [length] at cut
      refine ⟨c :: (body ++ front), d, rest, _, by simp, .token (by simpa using solid) ?_
        spelled cut, ?_, stops, missing⟩
      · rw [← List.append_assoc] at found
        exact lexeme?_of_fits found (by simp [spelled])
      · simp only [length, List.length_cons, List.length_append]
        congr 1
        omega

/-- A tokenized source is tiled by its tokens, and in one way only. Where a source cannot be
tokenized, a character is reported in front of which it can be, and at which there is neither a
gap nor a word of any pattern. -/
theorem tokenize_exactly (source : List Char) :
    (∀ stream, tokenize source = .ok stream ↔ Tiles source stream) ∧
    ∀ fault, tokenize source = .error fault →
      ∃ c, fault.cause = .unexpectedCharacter c ∧ source[fault.position]? = some c ∧
        isGap c = false ∧ (∃ stream, tokenize (source.take fault.position) = .ok stream) ∧
        ∀ lexeme : Lexeme, ∀ word ∈ lexeme.pattern, ¬word <+: source.drop fault.position := by
  refine ⟨fun stream => tokenize_eq_ok_iff_tiles, fun fault failed => ?_⟩
  have read : tokensFrom 0 source = .error fault := by
    unfold tokenize at failed
    cases read : tokensFrom 0 source with
    | ok tokens => rw [read] at failed; contradiction
    | error other => rw [read] at failed; cases failed; rfl
  obtain ⟨front, c, rest, tokens, rfl, cut, rfl, solid, missing⟩ := tokensFrom_eq_error read
  simp only [Nat.zero_add, List.take_left, List.drop_left]
  exact ⟨c, rfl, by simp, solid, ⟨⟨tokens, _⟩, tokenize_eq_ok_iff.mpr ⟨cut, rfl⟩⟩,
    no_word_of_lexeme? missing⟩

end MatrixCalculator.Language
