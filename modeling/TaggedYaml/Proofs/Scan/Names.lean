import TaggedYaml.Proofs.Except
import TaggedYaml.Proofs.Scan.Label
import TaggedYaml.Token.Scan

/-!
# Names — what may be read as a name

A lexer stands in a text without U+0000 and has told no names but those that may be written again
(`Lexer.Tidy`); every step keeps this, and so the tokens of a text do (`named_of_mem_scan`).
-/

namespace TaggedYaml

/-- The name of an anchor or an alias, if a token is one. -/
def Token.Named : Token → Prop
  | .anchor name | .alias name => IsName name.toList
  | _ => True

/-! ### Cursors -/

namespace Cursor

/-- What is left of a text ends where the text ends. -/
def Clean (c : Cursor) : Prop := '\x00' ∉ c.rest

variable {c : Cursor}

theorem clean_ofList (text : List Char) : (ofList text).Clean := by
  intro h
  simpa using List.mem_takeWhile_imp h

theorem Clean.of_suffix {d : Cursor} (h : c.Clean) (hd : d.rest <:+ c.rest) : d.Clean :=
  fun hm => h (hd.subset hm)

theorem Clean.look (h : c.Clean) (n : Nat) : (c.look n).Clean := h

theorem Clean.pass (h : c.Clean) (n : Nat) : (c.pass n).Clean :=
  h.of_suffix (List.drop_suffix n c.rest)

theorem Clean.passInk (h : c.Clean) (n : Nat) : (c.passInk n).Clean := h.pass n

theorem Clean.passBlanks (h : c.Clean) (p : Char → Bool) : (c.passBlanks p).Clean := h.pass _

theorem Clean.passLine (h : c.Clean) : c.passLine.Clean := h.pass _

theorem Clean.passBreak (h : c.Clean) : c.passBreak.Clean := by
  refine h.of_suffix ?_
  unfold Cursor.passBreak
  split
  · rename_i heq
    rw [heq]
    exact (List.suffix_cons _ _).trans (List.suffix_cons _ _)
  · rename_i heq
    rw [heq]
    exact List.suffix_cons _ _
  · exact List.suffix_refl _

theorem Clean.trailing (h : c.Clean) (tabs : Bool) :
    Ends (c.trailing tabs) fun t => t.cursor.Clean := by
  unfold Cursor.trailing
  dsimp only
  split
  · split
    · exact ends_error _
    · exact ends_ok (h.passBlanks _).passLine
  · exact ends_ok (h.passBlanks _)

/-! #### Tags and directives -/

theorem Clean.tagText (h : c.Clean) (p : Char → Bool) : Ends (c.tagText p) fun r => r.2.Clean := by
  unfold Cursor.tagText
  exact .bind fun _ _ => ends_ok (h.passInk _)

theorem Clean.tagHandle (h : c.Clean) (inDirective : Bool) :
    Ends (c.tagHandle inDirective) fun r => r.2.Clean := by
  unfold Cursor.tagHandle
  dsimp only
  split
  · exact ends_error _
  · split
    · exact ends_ok ((h.passInk _).passInk 1)
    · split
      · exact ends_error _
      · exact ends_ok (h.passInk _)

/-- A cursor behind a token that is no name. -/
def Behind (r : Token × Cursor) : Prop := r.1.Named ∧ r.2.Clean

theorem Clean.verbatimTag (h : c.Clean) : Ends c.verbatimTag Behind := by
  unfold Cursor.verbatimTag
  refine ((h.passInk 2).tagText isUriChar).andThen fun r hr => ?_
  obtain ⟨text, d⟩ := r
  dsimp only at hr ⊢
  split
  · exact ends_ok ⟨trivial, hr.passInk 1⟩
  · exact ends_error _

theorem Clean.shorthandTag (h : c.Clean) : Ends c.shorthandTag Behind := by
  unfold Cursor.shorthandTag
  refine (h.tagHandle false).andThen fun r hr => ?_
  refine (hr.tagText isTagChar).andThen fun r' hr' => ?_
  dsimp only
  split
  · split
    · exact ends_error _
    · exact ends_ok ⟨trivial, hr'⟩
  · split
    · exact ends_ok ⟨trivial, hr'⟩
    · exact ends_ok ⟨trivial, hr'⟩

theorem Clean.tag (h : c.Clean) (inFlow : Bool) : Ends (c.tag inFlow) Behind := by
  unfold Cursor.tag
  have hend : ∀ r : Token × Cursor, Behind r →
      Ends (if (r.2.look 1).head?.all isGap || (inFlow && (r.2.look 1).head?.any isFlowMark) then
        (.ok (r.1, r.2.look 1) : Except Defect (Token × Cursor)) else .error .tagEnd) Behind := by
    intro r hr
    split
    · exact ends_ok hr
    · exact ends_error _
  dsimp only
  split
  · exact (h.look 2).verbatimTag.andThen hend
  · exact (h.look 2).shorthandTag.andThen hend

theorem Clean.versionNumber (h : c.Clean) : Ends c.versionNumber Clean := by
  unfold Cursor.versionNumber
  dsimp only
  split
  · exact ends_error _
  · split
    · exact ends_error _
    · exact ends_ok (h.passInk _)

theorem Clean.versionDirective (h : c.Clean) : Ends c.versionDirective Behind := by
  unfold Cursor.versionDirective
  refine (h.passBlanks isBlank).versionNumber.andThen fun d hd => ?_
  split
  · exact (hd.passInk 1).versionNumber.andThen fun e he => ends_ok ⟨trivial, he⟩
  · exact ends_error _

theorem Clean.tagAddress (h : c.Clean) : Ends c.tagAddress fun r => r.2.Clean := by
  unfold Cursor.tagAddress
  split
  · exact ((h.passInk 1).tagText isUriChar).andThen fun r hr => ends_ok hr
  · split
    · exact h.tagText isUriChar
    · exact ends_error _

theorem Clean.tagDirective (h : c.Clean) : Ends c.tagDirective Behind := by
  unfold Cursor.tagDirective
  refine ((h.passBlanks isBlank).tagHandle true).andThen fun r hr => ?_
  refine (hr.passBlanks isBlank).tagAddress.andThen fun r' hr' => ?_
  dsimp only
  split
  · exact ends_ok ⟨trivial, hr'⟩
  · exact ends_error _

/-! #### Scalars -/

theorem clean_readQuotedGapLoop (indent : Int) : ∀ (fuel : Nat) (g : Gap) {c : Cursor}, c.Clean →
    Ends (readQuotedGapLoop indent fuel g c) fun r => r.2.Clean
  | 0, _, _, h => ends_ok h
  | fuel + 1, g, c, h => by
    unfold readQuotedGapLoop
    split
    · exact ends_ok h
    · split
      · split
        · exact ends_error _
        · exact clean_readQuotedGapLoop indent fuel _ (h.pass 1)
      · split
        · exact clean_readQuotedGapLoop indent fuel _ ((h.look 2).passBreak.look 1)
        · exact ends_ok h

theorem clean_readQuotedLoop (quote : Char) (indent : Int) (start : Mark) :
    ∀ (fuel : Nat) (text : List Char) {c : Cursor}, c.Clean →
    Ends (readQuotedLoop quote indent start fuel text c) fun r => r.2.Clean
  | 0, _, _, _ => ends_error _
  | fuel + 1, text, c, h => by
    unfold readQuotedLoop
    dsimp only
    split
    · exact ends_error _
    split
    · exact ends_error _
    split
    · exact ends_error _
    split
    · exact ends_error _
    rename_i w _
    have hgap : ∀ (d : Cursor) (g : Gap), d.Clean →
        Ends (if d.head? == some quote then .ok (w.text, d) else do
          let r ← readQuotedGap indent g d
          readQuotedLoop quote indent start fuel (r.1.text.reverse ++ w.text) r.2)
          fun r => r.2.Clean := by
      intro d g hd
      split
      · exact ends_ok hd
      · exact (clean_readQuotedGapLoop indent _ g hd).andThen fun r hr =>
          clean_readQuotedLoop quote indent start fuel _ hr
    have hword : (((c.look 4).passInk w.length).look 2).Clean := h.passInk _
    split
    · exact hgap _ _ (((hword.look 3).passInk 1).passBreak.look 1)
    · exact hgap _ _ hword

theorem clean_readPlainGapLoop (indent : Int) (start : Mark) : ∀ (fuel : Nat) (g : Gap) {c : Cursor},
    c.Clean → Ends (readPlainGapLoop indent start fuel g c) fun r => r.2.Clean
  | 0, _, _, h => ends_ok h
  | fuel + 1, g, c, h => by
    unfold readPlainGapLoop
    dsimp only
    split
    · exact ends_ok h
    · split
      · split
        · refine ((h.look 2).trailing true).andThen fun t ht => ?_
          split
          · exact clean_readPlainGapLoop indent start fuel _ ht
          · exact ends_error _
        · exact clean_readPlainGapLoop indent start fuel _ (h.pass 1)
      · split
        · exact clean_readPlainGapLoop indent start fuel _ (h.look 2).passBreak
        · exact ends_ok h

theorem clean_readPlainLoop (inFlow : Bool) (indent : Int) (start : Mark) :
    ∀ (fuel : Nat) (g : Gap) (text : List Char) {c : Cursor}, c.Clean →
    Ends (readPlainLoop inFlow indent start fuel g text c) fun r => r.2.Clean
  | 0, _, _, _, h => ends_ok h
  | fuel + 1, g, text, c, h => by
    unfold readPlainLoop
    dsimp only
    split
    · exact ends_ok h
    split
    · exact ends_error _
    split
    · exact ends_ok h
    split
    · have hword : (((c.look 4).passInk (plainWord inFlow (c.look 4).rest).length).look 2).Clean :=
        h.passInk _
      refine (clean_readPlainGapLoop indent start _ .empty hword).andThen fun r hr => ?_
      split
      · exact ends_ok hr
      · exact clean_readPlainLoop inFlow indent start fuel _ _ hr
    · exact ends_ok (h.passInk _)

theorem clean_readPlain (h : c.Clean) (inFlow : Bool) (indent : Int) :
    Ends (readPlain inFlow indent c) fun r => r.2.Clean := by
  unfold readPlain
  split
  · exact ends_error _
  · exact clean_readPlainLoop inFlow indent _ _ _ _ h

theorem clean_passWideIndent {column : Nat} {text : List Char} :
    c.Clean → (passWideIndent column text c).Clean := by
  fun_induction passWideIndent column text c with
  | case1 rest c _ ih =>
    refine fun h => ih (Clean.pass ?_ 1)
    split
    · exact h
    · exact h
  | case2 => exact id
  | case3 => exact id
  | case4 => exact id
  | case5 => exact id

theorem clean_passIndent (h : c.Clean) (column : Nat) : (passIndent column c).Clean := by
  unfold passIndent
  dsimp only
  split
  · exact (h.look blockWindow).pass _
  · exact clean_passWideIndent h

theorem clean_passEmptyLines (column : Nat) : ∀ (fuel n : Nat) {c : Cursor}, c.Clean →
    (passEmptyLines column fuel n c).2.Clean
  | 0, _, _, h => h
  | fuel + 1, n, c, h => by
    unfold passEmptyLines
    dsimp only
    split
    · exact clean_passEmptyLines column fuel _ ((clean_passIndent h column).look 2).passBreak
    · exact clean_passIndent h column

theorem clean_findIndent : ∀ (fuel widest n : Nat) {c : Cursor}, c.Clean →
    (findIndent fuel widest n c).2.2.Clean
  | 0, _, _, _, h => h
  | fuel + 1, widest, n, c, h => by
    unfold findIndent
    dsimp only
    split
    · exact clean_findIndent fuel _ _ ((h.passBlanks _).look 2).passBreak
    · exact h.passBlanks _

theorem clean_passContent (h : c.Clean) : (passContent c).2.Clean := by
  unfold passContent
  dsimp only
  split
  · exact h.pass _
  · exact h.pass _

theorem clean_readBlockLines (folded : Bool) (indent : Nat) :
    ∀ (fuel : Nat) (e : LineEnd) (text : List Char) {c : Cursor}, c.Clean →
    (readBlockLines folded indent fuel e text c).2.2.Clean
  | 0, _, _, _, h => h
  | fuel + 1, e, text, c, h => by
    unfold readBlockLines
    dsimp only
    have hline : ∀ d : Cursor, d.Clean → ((passContent d).2.look 2).Clean :=
      fun d hd => clean_passContent hd
    have hnext : ∀ d : Cursor, d.Clean → ∀ (n : Nat) (e : LineEnd) (text : List Char),
        (readBlockLines folded indent fuel e text (passEmptyLines indent n 0
          ((passContent d).2.look 2).passBreak).2).2.2.Clean :=
      fun d hd n e text => clean_readBlockLines folded indent fuel e text
        (clean_passEmptyLines indent n 0 (hline d hd).passBreak)
    split
    · exact h
    by_cases hi : indent = 0
    · simp only [hi, if_true]
      subst hi
      split
      · exact h
      split
      · exact hline (c.look 4) h
      · exact hnext (c.look 4) h _ _ _
    · simp only [hi, if_false]
      split
      · exact h
      split
      · exact hline c h
      · exact hnext c h _ _ _

end Cursor

/-! ### Lexers -/

namespace Lexer

/-- No token in the queue has a name that could not be written, nor will one. -/
structure Tidy (l : Lexer) : Prop where
  clean : l.cursor.Clean
  named : ∀ t ∈ l.queue, t.item.Named

variable {l : Lexer}

theorem Tidy.move (h : l.Tidy) {c : Cursor} (hc : c.Clean) : (l.move c).Tidy := ⟨hc, h.named⟩

theorem Tidy.allowKey (h : l.Tidy) (allowed : Bool) : (l.allowKey allowed).Tidy := ⟨h.clean, h.named⟩

theorem Tidy.setSpot (h : l.Tidy) (s : KeySpot) : (l.setSpot s).Tidy := ⟨h.clean, h.named⟩

theorem Tidy.push (h : l.Tidy) (m : Mark) {t : Token} (ht : t.Named) : (l.push m t).Tidy := by
  refine ⟨h.clean, fun x hx => ?_⟩
  rcases Array.mem_push.mp hx with hx | rfl
  · exact h.named x hx
  · exact ht

theorem Tidy.insert (h : l.Tidy) (number : Nat) (m : Mark) {t : Token} (ht : t.Named) :
    (l.insert number m t).Tidy := by
  refine ⟨h.clean, fun x hx => ?_⟩
  simp only [Lexer.insert, Array.insertIdxIfInBounds] at hx
  split at hx
  · rcases Array.mem_insertIdx.mp hx with rfl | hx
    · exact ht
    · exact h.named x hx
  · exact h.named x hx

theorem Tidy.saveKey (h : l.Tidy) : l.saveKey.Tidy := by
  unfold Lexer.saveKey
  split
  · exact h.setSpot _
  · exact h

theorem Tidy.dropKey (h : l.Tidy) : Ends l.dropKey Tidy := by
  unfold Lexer.dropKey
  split
  · exact ends_error _
  · exact ends_ok (h.setSpot _)

theorem Tidy.dropStale (h : l.Tidy) : Ends l.dropStale Tidy := by
  unfold Lexer.dropStale
  split
  · exact ends_error _
  · exact ends_ok ⟨h.clean, h.named⟩

theorem Tidy.openBlock (h : l.Tidy) (column : Int) (before : Option Nat) (t : Token) (m : Mark)
    (ht : t.Named) : (l.openBlock column before t m).Tidy := by
  unfold Lexer.openBlock
  extract_lets outer
  split
  · exact h
  · have houter : outer.Tidy := by
      unfold outer
      split
      · split
        · exact ⟨h.clean, h.named⟩
        · exact h
      · exact h
    split
    · have hinner : Tidy { outer with levels := ⟨outer.indent, true⟩ :: outer.levels, indent := column } :=
        ⟨houter.clean, houter.named⟩
      cases before with
      | none => exact hinner.push m ht
      | some n => exact hinner.insert n m ht
    · exact houter

theorem Tidy.indentContent (h : l.Tidy) : l.indentContent.Tidy := by
  unfold Lexer.indentContent
  split
  · exact ⟨h.clean, h.named⟩
  · exact h

theorem Tidy.closeBlocks (h : l.Tidy) (column : Int) : (l.closeBlocks column).Tidy := by
  unfold Lexer.closeBlocks
  split
  · exact h
  · refine ⟨h.clean, fun x hx => ?_⟩
    rcases Array.mem_append.mp hx with hx | hx
    · exact h.named x hx
    · rw [(Array.mem_replicate.mp hx).2]
      trivial

theorem Tidy.closeContent (h : l.Tidy) : l.closeContent.Tidy := ⟨h.clean, h.named⟩

theorem Tidy.endPair (h : l.Tidy) (m : Mark) : (l.endPair m).Tidy := by
  unfold Lexer.endPair
  split
  · have hpair : Tidy { l with inPair := false, inBraces := false } := ⟨h.clean, h.named⟩
    exact hpair.push m trivial
  · exact h

/-! #### Space -/

theorem Tidy.skipTrailing (h : l.Tidy) : Ends l.skipTrailing Tidy :=
  (h.clean.trailing true).andThen fun _ ht => ends_ok (h.move ht)

theorem Tidy.skipBreak (h : l.Tidy) : l.skipBreak.Tidy := by
  have hmove : (l.move (l.cursor.look 2).passBreak).Tidy := h.move (h.clean.look 2).passBreak
  unfold Lexer.skipBreak
  dsimp only
  split
  · exact hmove
  · exact hmove.allowKey true

theorem tidy_skipSpaceLoop : ∀ (fuel : Nat) {l : Lexer}, l.Tidy → Ends (skipSpaceLoop fuel l) Tidy
  | 0, _, h => ends_ok h
  | fuel + 1, l, h => by
    have h1 : (l.move (l.cursor.look 1)).Tidy := h.move h.clean
    unfold skipSpaceLoop
    dsimp only
    split
    · refine h1.skipTrailing.andThen fun l' hl' => ?_
      split
      · exact tidy_skipSpaceLoop fuel hl'
      · exact ends_error _
    · split
      · exact ends_ok h1
      · split
        · exact tidy_skipSpaceLoop fuel (h1.move (h1.clean.pass 1))
        split
        · exact tidy_skipSpaceLoop fuel h1.skipBreak
        split
        · exact tidy_skipSpaceLoop fuel (h1.move h1.clean.passLine)
        · exact ends_ok h1

theorem Tidy.skipSpace (h : l.Tidy) : Ends l.skipSpace Tidy := tidy_skipSpaceLoop _ h

theorem tidy_skipKeySpaceLoop : ∀ (fuel : Nat) (found : Bool) {l : Lexer}, l.Tidy →
    Ends (skipKeySpaceLoop fuel found l) Tidy
  | 0, _, _, h => ends_ok h
  | fuel + 1, found, l, h => by
    have h1 : (l.move (l.cursor.look 1)).Tidy := h.move h.clean
    unfold skipKeySpaceLoop
    dsimp only
    split
    · exact tidy_skipKeySpaceLoop fuel true (h1.move (h1.clean.pass 1))
    · exact tidy_skipKeySpaceLoop fuel found (h1.move h1.clean.passLine)
    · split
      · exact tidy_skipKeySpaceLoop fuel true h1.skipBreak
      · split
        · exact ends_ok h1
        · exact ends_error _
    · split
      · exact ends_ok h1
      · exact ends_error _

theorem Tidy.skipKeySpace (h : l.Tidy) : Ends l.skipKeySpace Tidy := tidy_skipKeySpaceLoop _ _ h

/-! #### Indicators -/

theorem Tidy.openFlow (h : l.Tidy) {t : Token} (ht : t.Named) : Ends (l.openFlow t) Tidy := by
  have h' := h.saveKey.indentContent
  unfold Lexer.openFlow
  extract_lets l'
  split
  · exact ends_error _
  · have hopen : Tidy { l' with
        spots := .none :: l'.spots
        flowDepth := l'.flowDepth + 1
        keyAllowed := true
        inBraces := l'.inBraces || t == Token.flowMappingStart } := ⟨h'.clean, h'.named⟩
    exact (hopen.move (h'.clean.passInk 1)).skipTrailing.andThen fun r hr => ends_ok (hr.push _ ht)

theorem Tidy.closeFlow (h : l.Tidy) {t : Token} (ht : t.Named) : Ends (l.closeFlow t) Tidy := by
  unfold Lexer.closeFlow
  refine h.dropKey.andThen fun l hl => ?_
  extract_lets out pair
  have hout : out.Tidy := by
    unfold out
    split
    · exact ⟨hl.clean, hl.named⟩
    · exact hl
  have hpair : pair.Tidy := (hout.allowKey false).endPair _
  refine (hpair.move (hpair.clean.passInk 1)).skipTrailing.andThen fun r hr => ?_
  extract_lets r'
  have hr' : r'.Tidy := by
    unfold r'
    split
    · exact ⟨hr.clean, hr.named⟩
    · exact hr
  exact ends_ok (hr'.push _ ht)

theorem Tidy.readComma (h : l.Tidy) : Ends l.readComma Tidy := by
  unfold Lexer.readComma
  refine h.dropKey.andThen fun l hl => ?_
  have hpair := (hl.allowKey true).endPair l.mark
  refine (hpair.move (hpair.clean.passInk 1)).skipTrailing.andThen fun r hr => ?_
  exact ends_ok (hr.push _ trivial)

theorem Tidy.readDash (h : l.Tidy) : Ends l.readDash Tidy := by
  unfold Lexer.readDash
  split
  · exact ends_error _
  split
  · exact ends_error _
  split
  · exact ends_error _
  · extract_lets r
    have hr : r.Tidy := (h.move (h.clean.passInk 1)).openBlock _ _ .blockSequenceStart _ trivial
    refine (hr.clean.trailing true).andThen fun t ht => ?_
    extract_lets c next
    have hnext : Ends (next ()) Tidy := by
      refine ((ht.look 2).trailing false).andThen fun t' ht' => ?_
      extract_lets c' r₁ r₂
      have hr₂ : r₂.Tidy := by
        unfold r₂
        split
        · exact (hr.move ht').indentContent
        · exact hr.move ht'
      exact hr₂.dropKey.andThen fun r hr => ends_ok ((hr.allowKey true).push _ trivial)
    split
    · exact .bind fun _ hf => by cases hf
    · exact hnext

theorem Tidy.readDocumentMark (h : l.Tidy) {t : Token} (ht : t.Named) :
    Ends (l.readDocumentMark t) Tidy := by
  unfold Lexer.readDocumentMark
  refine (h.closeBlocks (-1)).dropKey.andThen fun l hl => ?_
  exact ends_ok (((hl.allowKey false).move (hl.clean.passInk 3)).push _ ht)

theorem Tidy.readKeyMark (h : l.Tidy) : Ends l.readKeyMark Tidy := by
  unfold Lexer.readKeyMark
  extract_lets next
  have hnext : ∀ r, Tidy r → Ends (next r) Tidy := by
    intro r hr
    refine hr.dropKey.andThen fun r hr => ?_
    refine ((hr.allowKey _).move (hr.clean.passInk 1)).skipKeySpace.andThen fun r hr => ?_
    split
    · exact ends_error _
    · exact ends_ok (hr.push _ trivial)
  split
  · exact hnext _ ⟨h.clean, h.named⟩
  · split
    · exact .bind fun _ hf => by cases hf
    · exact hnext _ (h.openBlock _ _ .blockMappingStart _ trivial)

theorem Tidy.readColon (h : l.Tidy) : Ends l.readColon Tidy := by
  unfold Lexer.readColon
  extract_lets spot pair r finish behindKey behindMark
  have hr : r.Tidy := by
    have hpair : Tidy { l with inPair := pair } := ⟨h.clean, h.named⟩
    exact hpair.move (h.clean.passInk 1)
  have hfinish : ∀ r, Tidy r → Ends (finish r) Tidy := fun r hr => ends_ok (hr.push _ trivial)
  have hkey : ∀ r, Tidy r → Ends (behindKey r) Tidy := fun r hr =>
    hfinish _ (((hr.openBlock _ _ .blockMappingStart _ trivial).indentContent.setSpot _).allowKey false)
  have hmark : ∀ r, Tidy r → Ends (behindMark r) Tidy := by
    intro r hr
    unfold behindMark
    split
    · have hr' := hr.insert spot.number spot.mark (show Token.key.Named from trivial)
      dsimp only
      split
      · split
        · exact .bind fun _ hf => by cases hf
        · exact hkey _ (hr'.insert _ _ trivial)
      · exact hkey _ hr'
    · extract_lets r'
      have hr' : r'.Tidy := by
        unfold r'
        split
        · exact hr.push _ trivial
        · exact hr
      split
      · exact hfinish _ (hr'.allowKey false)
      · split
        · exact .bind fun _ hf => by cases hf
        · exact hfinish _ ((hr'.openBlock _ _ .blockMappingStart _ trivial).indentContent.allowKey true)
  split
  · refine (hr.clean.trailing true).andThen fun t ht => ?_
    extract_lets next
    split
    · exact .bind fun _ hf => by cases hf
    · exact hmark _ (hr.move ht)
  · exact hmark _ hr

/-! #### Scalars, names and tags -/

theorem Tidy.readPlainScalar (h : l.Tidy) : Ends l.readPlainScalar Tidy := by
  unfold Lexer.readPlainScalar
  extract_lets l'
  have hl : l'.Tidy := (h.saveKey.allowKey false).closeContent
  refine (Cursor.clean_readPlain hl.clean _ _).andThen fun r hr => ?_
  obtain ⟨text, c⟩ := r
  have hread := (hl.move hr).push l'.mark (t := .scalar .plain (String.ofList text.reverse)) trivial
  dsimp only
  split
  · exact ends_ok (hread.allowKey true)
  · exact ends_ok hread

theorem Tidy.readQuotedScalar (h : l.Tidy) (quote : Char) (style : Style) :
    Ends (l.readQuotedScalar quote style) Tidy := by
  unfold Lexer.readQuotedScalar
  extract_lets l'
  have hl : l'.Tidy := h.saveKey.allowKey false
  refine (Cursor.clean_readQuotedLoop _ _ _ _ _ (hl.clean.passInk 1)).andThen fun r hr => ?_
  obtain ⟨text, c⟩ := r
  refine ((hr.passInk 1).trailing true).andThen fun t ht => ?_
  extract_lets d next
  have hnext : Ends (next ()) Tidy := by
    refine (hl.move ht).skipSpace.andThen fun r hr => ?_
    have hr' : Tidy { r with valueOffset := r.mark.offset } := ⟨hr.clean, hr.named⟩
    exact ends_ok (hr'.push _ trivial)
  split
  · exact .bind fun _ hf => by cases hf
  · exact hnext

theorem Tidy.readBlockScalar (h : l.Tidy) (folded : Bool) : Ends (l.readBlockScalar folded) Tidy := by
  unfold Lexer.readBlockScalar
  extract_lets l' fail style c
  have hl : l'.Tidy := (h.saveKey.allowKey true).closeContent
  split
  · exact ends_error _
  · extract_lets c₁
    have hc₁ : c₁.Clean := by
      unfold c₁
      split
      · exact hl.clean.passInk 1
      · exact (hl.clean.passInk 1).passInk _
    refine (hc₁.trailing true).andThen fun t ht => ?_
    extract_lets c₂ firstLineEnds c₃ fuel
    have hc₃ : c₃.Clean := by
      unfold c₃
      split
      · exact (ht.look 2).passBreak
      · exact ht
    split
    · exact ends_error _
    split
    · exact ends_error _
    split
    rename_i indent empty d heq
    have hd : d.Clean := by
      split at heq
      · rename_i n _
        have hend : (passEmptyLines _ fuel 0 c₃).2 = d := congrArg (·.2.2) heq
        exact hend ▸ Cursor.clean_passEmptyLines _ _ _ hc₃
      · have hend : (findIndent fuel 0 0 c₃).2.2 = d := congrArg (·.2.2) heq
        exact hend ▸ Cursor.clean_findIndent _ _ _ hc₃
    split
    · exact ends_ok ((hl.move hd).push _ trivial)
    split
    · exact ends_error _
    split
    rename_i e text d' hread
    have hd' : d'.Clean := by
      have hlines := Cursor.clean_readBlockLines folded indent fuel ⟨false, empty, false⟩ [] hd
      rwa [hread] at hlines
    exact ends_ok ((hl.move hd').push _ trivial)

theorem Tidy.readTag (h : l.Tidy) : Ends l.readTag Tidy := by
  have hl := h.saveKey.allowKey false
  unfold Lexer.readTag
  dsimp only
  split
  · rename_i t c heq
    obtain ⟨ht, hc⟩ := hl.clean.tag _ _ heq
    exact ends_ok ((hl.move hc).push _ ht)
  · exact ends_error _

/-- What is read behind `&` or `*` is a name. -/
theorem Tidy.readName (h : l.Tidy) {t : String → Token}
    (ht : ∀ name, IsName name → (t (String.ofList name)).Named) : Ends (l.readName t) Tidy := by
  have hl := h.saveKey.allowKey false
  unfold Lexer.readName
  extract_lets l' name
  split
  · exact ends_error _
  · rename_i hne
    refine ends_ok (((hl.move ((hl.clean.passInk _).look 1)).push _ (ht _ ⟨by simpa using hne, ?_⟩)))
    intro c hc
    have hsub : c ∈ (l'.cursor.passInk 1).rest := (List.takeWhile_prefix _).subset hc
    refine ⟨List.mem_takeWhile_imp hc, ?_⟩
    rintro rfl
    exact hl.clean.passInk 1 hsub

theorem Tidy.readDirective (h : l.Tidy) : Ends l.readDirective Tidy := by
  unfold Lexer.readDirective
  refine (h.closeBlocks (-1)).dropKey.andThen fun l hl => ?_
  extract_lets l'
  have hl' : l'.Tidy := hl.allowKey false
  have hbody : Ends l'.readDirectiveBody Cursor.Behind := by
    unfold readDirectiveBody
    extract_lets c name d body
    have hd : d.Clean := (hl'.clean.passInk 1).passInk _
    split
    · exact ends_error _
    split
    · exact ends_error _
    refine Ends.mapError ?_ _
    unfold body
    split
    · exact hd.versionDirective
    split
    · exact hd.tagDirective
    · exact ends_ok ⟨trivial, hd.passLine⟩
  refine hbody.andThen fun r hr => ?_
  obtain ⟨t, c⟩ := r
  refine (hr.2.trailing true).andThen fun t' ht' => ?_
  extract_lets d
  split
  · exact ends_ok ((hl'.move ht').push _ hr.1)
  · split
    · exact ends_ok ((hl'.move (ht'.look 2).passBreak).push _ hr.1)
    · exact ends_error _

/-! #### Tokens -/

theorem Tidy.readEnd (h : l.Tidy) : Ends l.readEnd Tidy := by
  unfold Lexer.readEnd
  extract_lets m d l'
  have hl : l'.Tidy := by
    unfold l'
    split
    · exact h
    · exact h.move h.clean
  split
  · exact ends_error _
  · have hclear : Tidy { l' with spots := l'.spots.map .clear } := ⟨hl.clean, hl.named⟩
    refine (hclear.closeBlocks (-1)).dropKey.andThen fun r hr => ?_
    have hr' : Tidy { r with keyAllowed := false, finished := true } := ⟨hr.clean, hr.named⟩
    exact ends_ok (hr'.push _ trivial)

theorem Tidy.readDocumentEnd (h : l.Tidy) : Ends l.readDocumentEnd Tidy := by
  unfold Lexer.readDocumentEnd
  refine (h.readDocumentMark (t := .documentEnd) trivial).andThen fun l hl => ?_
  refine hl.skipTrailing.andThen fun l hl => ?_
  split
  · exact ends_ok hl
  · exact ends_error _

theorem named_ofList {name : List Char} (h : IsName name) : IsName (String.ofList name).toList := by
  rw [String.toList_ofList]
  exact h

theorem Tidy.readTokenAt (h : l.Tidy) (c : Char) : Ends (l.readTokenAt c) Tidy := by
  unfold Lexer.readTokenAt
  extract_lets next spaced
  split
  · exact h.openFlow trivial
  · exact h.openFlow trivial
  · exact h.closeFlow trivial
  · exact h.closeFlow trivial
  · exact h.readComma
  · split
    · exact h.readDash
    · exact h.readPlainScalar
  · split
    · exact h.readKeyMark
    · exact h.readPlainScalar
  · split
    · exact h.readColon
    · exact h.readPlainScalar
  · exact h.readName fun _ => named_ofList
  · exact h.readName fun _ => named_ofList
  · exact h.readTag
  · split
    · exact h.readPlainScalar
    · exact h.readBlockScalar false
  · split
    · exact h.readPlainScalar
    · exact h.readBlockScalar true
  · exact h.readQuotedScalar _ _
  · exact h.readQuotedScalar _ _
  · exact ends_error _
  · exact ends_error _
  · exact ends_error _
  · exact h.readPlainScalar

theorem Tidy.readToken (h : l.Tidy) : Ends l.readToken Tidy := by
  unfold Lexer.readToken
  refine h.skipSpace.andThen fun l hl => ?_
  refine hl.dropStale.andThen fun l hl => ?_
  extract_lets l₁ l₂
  have hl₂ : l₂.Tidy := (hl.closeBlocks _).move (hl.closeBlocks _).clean
  split
  · exact hl₂.readEnd
  split
  · exact hl₂.readDirective
  split
  · exact hl₂.readDocumentMark trivial
  split
  · exact hl₂.readDocumentEnd
  split
  · exact ends_error _
  · exact hl₂.readTokenAt _

theorem Tidy.release (h : l.Tidy) : (∀ t ∈ l.release.1, t.item.Named) ∧ l.release.2.Tidy := by
  have hpart : ∀ (i j : Nat), ∀ t ∈ l.queue.extract i j, t.item.Named := by
    intro i j t ht
    obtain ⟨k, hk, rfl⟩ := Array.getElem_of_mem ht
    rw [Array.getElem_extract]
    exact h.named _ (Array.getElem_mem _)
  exact ⟨fun t ht => hpart _ _ t (Array.mem_toList_iff.mp ht), h.clean, hpart _ _⟩

theorem named_scanLoop : ∀ (fuel : Nat) {sent : List (Marked Token)} {l : Lexer}, l.Tidy →
    (∀ t ∈ sent, t.item.Named) → ∀ t ∈ (scanLoop fuel sent l).tokens, t.item.Named
  | 0, sent, l, _, hs, t, ht => hs t (List.mem_reverse.mp ht)
  | fuel + 1, sent, l, h, hs, t, ht => by
    have hread : Ends (l.readToken.bind dropStale) Tidy := h.readToken.andThen fun l hl => hl.dropStale
    unfold scanLoop at ht
    split at ht
    · exact hs t (List.mem_reverse.mp ht)
    · rename_i l' hl'
      obtain ⟨hready, htidy⟩ := (hread l' hl').release
      have hsent : ∀ t ∈ l'.release.1.reverse ++ sent, t.item.Named := by
        intro x hx
        rcases List.mem_append.mp hx with hx | hx
        · exact hready x (List.mem_reverse.mp hx)
        · exact hs x hx
      dsimp only at ht
      split at ht
      · exact hsent t (List.mem_reverse.mp ht)
      · exact named_scanLoop fuel htidy hsent t ht

end Lexer

/-- What stands behind `&` and `*` in a text are names. -/
theorem named_of_mem_scan {text : List Char} {t : Marked Token} (h : t ∈ (scan text).tokens) :
    t.item.Named := by
  refine Lexer.named_scanLoop _ ⟨Cursor.clean_ofList text, fun x hx => ?_⟩ (fun x hx => ?_) t h
  · exact absurd hx (Array.not_mem_empty x)
  · exact absurd hx (List.not_mem_nil)

end TaggedYaml
