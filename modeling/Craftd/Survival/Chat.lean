import Craftd.Containers.StringSlice
import Craftd.Protocol.StringColor
import Craftd.Survival.SessionSafety

/-!
# Chat messages

A translation of `svchat_PlayerChat` and `svchat_ChatCommand` with the strings that
they hand on, and of `CD_RegexpMatch`.  `Craftd.Survival.playerChat` is the same
handler as a packet of a session sees it, without the arguments of a command, and
`session_playerChat` connects the two.  What becomes of a string once it is sent or
given back is left out.

`pcre_exec` is outside the server.  A call of it answers with the bounds of the
groups up to the last one that took part in the match, and `ChatRegex` is what the
expression `^(\w+)(?:\s+(.*?))?$` makes of that.

The text behind the command token is cut off by its length, which gives NULL where
nothing is left, and the group of the arguments is missing where the text is a
single word.  `chat_harmless_iff` says that these are the only two messages to be
afraid of.
-/

namespace Craftd.Survival.Chat

open StepSystem
open Containers (CDString utf8Offset createStringFromBuffer createStringFromOffset strlen IsChar
  createStringFromBuffer_flatten content_of_createStringFromBuffer utf8Text utf8Chars
  isChar_of_mem_utf8Chars)
open Protocol (svStringColor svStringColorRange_text)

/-! ## The strings -/

/-- Why a message is not dealt with. -/
inductive ChatFault
  /-- an assertion fails -/
  | assertion
  /-- a string function is given NULL -/
  | nullString
  /-- the world of a player is NULL and is followed -/
  | missingWorld
  /-- a length is never found -/
  | endless
  deriving DecidableEq, Repr

/-- `CDRegexpMatches`; an item is NULL where its group took no part. -/
structure CDRegexpMatches where
  matched : ℕ
  item : List (Option CDString)

/-- The bytes of a subject between the bounds of a group. -/
def substring (subject : List Byte) (bounds : ℕ × ℕ) : List Byte :=
  (subject.drop bounds.1).take (bounds.2 - bounds.1)

/-- `CD_CreateStringFromBufferCopy` of each group. -/
def createItems (subject : List Byte) : List (ℕ × ℕ) → Option (List CDString)
  | [] => some []
  | bounds :: substrings =>
      match createStringFromBuffer (substring subject bounds) with
      | none => none
      | some item => (createItems subject substrings).map (item :: ·)

/-- `CD_RegexpMatch`, for an expression with `length` groups. -/
def regexpMatch (pcreExec : List Byte → Option (List (ℕ × ℕ))) (length : ℕ)
    (string : Option CDString) : Except ChatFault (Option CDRegexpMatches) :=
  match string with
  | none => .error .assertion
  | some string =>
      match pcreExec string.content with
      | none => .ok none
      | some substrings =>
          match createItems string.content substrings with
          | none => .error .endless
          | some items => .ok (some
              { matched := substrings.length - 1
                item := items.map some ++ List.replicate (length + 1 - items.length) none })

/-- `CD_CreateStringFromFormat`, with the length that `cd_UpdateLength` counts. -/
def createFormatted (printed : List Byte) : Except ChatFault CDString :=
  match createStringFromBuffer (createStringFromFormat printed) with
  | none => .error .endless
  | some string => .ok string

/-! ## The commands -/

variable {Client Player World : Type*}

/-- What a command sends. -/
inductive ChatSent (Player : Type*)
  /-- `svchat_SendMessage` -/
  | everyone (message : CDString)
  /-- `SV_PlayerSendMessage` -/
  | player (player : Player) (message : List Byte)

/-- `"me"`. -/
def meCommand : List Byte := [0x6D, 0x65]

/-- `"tell"`. -/
def tellCommand : List Byte := [0x74, 0x65, 0x6C, 0x6C]

/-- `"kill"`. -/
def killCommand : List Byte := [0x6B, 0x69, 0x6C, 0x6C]

/-- `": command not yet implemented"`. -/
def notYetImplemented : List Byte :=
  [0x3A, 0x20, 0x63, 0x6F, 0x6D, 0x6D, 0x61, 0x6E, 0x64, 0x20, 0x6E, 0x6F, 0x74, 0x20, 0x79, 0x65,
    0x74, 0x20, 0x69, 0x6D, 0x70, 0x6C, 0x65, 0x6D, 0x65, 0x6E, 0x74, 0x65, 0x64]

/-- `svchat_SendMessage` of what a format prints. -/
def sendFormatted (printed : List Byte) : Except ChatFault (List (ChatSent Player)) :=
  match createFormatted printed with
  | .error fault => .error fault
  | .ok message => .ok [.everyone message]

/-- The loop of `tell` over the players of the world. -/
def tellPlayers (self : Game Client Player World) (args : List Byte) :
    List Player → Except ChatFault (List (ChatSent Player))
  | [] => .ok []
  | otherPlayer :: order =>
      match (self.player otherPlayer).username with
      | none => .error .nullString
      | some username =>
          match tellPlayers self args order with
          | .error fault => .error fault
          | .ok sent =>
              if stringContent username = stringContent args then
                .ok (.player otherPlayer args :: sent)
              else .ok sent

/-- What `kill` sends. -/
def sendNotYetImplemented (player : Player) (command : List Byte) :
    Except ChatFault (List (ChatSent Player)) :=
  match createFormatted (stringContent command ++ notYetImplemented) with
  | .error fault => .error fault
  | .ok text =>
      match svStringColor text .yellow with
      | none => .error .assertion
      | some message => .ok [.player player message.content]

/-- `svchat_ChatCommand`; the log at its start takes the contents of all three strings, and
`order` is the order of the hash of the world. -/
def chatCommand (self : Game Client Player World) (player : Player) (order : List Player)
    (command args : Option (List Byte)) : Except ChatFault (List (ChatSent Player)) :=
  match (self.player player).username, command, args with
  | some username, some command, some args =>
      if stringContent command = [] then
        -- "<%s> %s"
        sendFormatted (0x3C :: stringContent username ++ 0x3E :: 0x20 :: stringContent args)
      else if stringContent command = meCommand then
        -- "* %s %s"
        sendFormatted (0x2A :: 0x20 :: stringContent username ++ 0x20 :: stringContent args)
      else if stringContent command = tellCommand then
        match (self.player player).world with
        | none => .error .missingWorld
        | some _ => tellPlayers self args order
      else if stringContent command = killCommand then sendNotYetImplemented player command
      else .ok []
  | _, _, _ => .error .nullString

/-- `svchat_PlayerChat`. -/
def playerChat (settings : Settings World) (pcreExec : List Byte → Option (List (ℕ × ℕ)))
    (self : Game Client Player World) (player : Player) (order : List Player)
    (message : CDString) : Except ChatFault (List (ChatSent Player)) :=
  if startsWithToken settings message then
    match createStringFromOffset message settings.commandToken.length 0 with
    | none => .error .endless
    | some commandString =>
        match regexpMatch pcreExec 2 commandString with
        | .error fault => .error fault
        | .ok none => .ok []
        | .ok (some found) =>
            chatCommand self player order
              ((found.item.getD 1 none).map CDString.content)
              ((found.item.getD 2 none).map CDString.content)
  else chatCommand self player order (some settings.defaultCommand) (some message.content)

/-! ## The expression of the commands -/

/-- What `\w` matches. -/
def IsWordByte (byte : Byte) : Prop :=
  0x30 ≤ byte ∧ byte ≤ 0x39 ∨ 0x41 ≤ byte ∧ byte ≤ 0x5A ∨ byte = 0x5F ∨ 0x61 ≤ byte ∧ byte ≤ 0x7A

instance decidableIsWordByte (byte : Byte) : Decidable (IsWordByte byte) :=
  inferInstanceAs (Decidable (_ ∨ _))

/-- A single word. -/
def IsWord (text : List Byte) : Prop := text ≠ [] ∧ ∀ byte ∈ text, IsWordByte byte

instance decidableIsWord (text : List Byte) : Decidable (IsWord text) :=
  inferInstanceAs (Decidable (_ ∧ _))

/-- What `pcre_exec` makes of `^(\w+)(?:\s+(.*?))?$`: a match has a first group, and it has no
second one exactly if the subject is a single word. -/
structure ChatRegex (pcreExec : List Byte → Option (List (ℕ × ℕ))) : Prop where
  groups : ∀ subject substrings, pcreExec subject = some substrings →
    substrings.length = 2 ∨ substrings.length = 3
  unset_iff : ∀ subject,
    (∃ substrings, pcreExec subject = some substrings ∧ substrings.length = 2) ↔ IsWord subject

/-! ## What is to hold -/

/-- No assertion fails, no world is missing and no NULL is passed to a string function. -/
def Harmless {Result : Type*} (result : Except ChatFault Result) : Prop :=
  ∀ fault, result = .error fault → fault = .endless

@[simp] theorem harmless_ok {Result : Type*} (result : Result) :
    Harmless (.ok result : Except ChatFault Result) := by
  simp [Harmless]

@[simp] theorem harmless_error {Result : Type*} (fault : ChatFault) :
    Harmless (.error fault : Except ChatFault Result) ↔ fault = .endless := by
  simp [Harmless]

/-- The text behind as many characters as the command token has. -/
def behindToken (settings : Settings World) (message : CDString) : List Byte :=
  stringContent (message.content.drop (utf8Offset message.content settings.commandToken.length))

/-- A message of the command token and at most a single word. -/
def LacksArguments (settings : Settings World) (message : CDString) : Prop :=
  startsWithToken settings message = true ∧
    (message.length ≤ settings.commandToken.length ∨ IsWord (behindToken settings message))

/-! ## Words -/

private theorem isChar_of_isWordByte {byte : Byte} (hbyte : IsWordByte byte) : IsChar [byte] := by
  unfold IsWordByte at hbyte
  unfold IsChar
  revert hbyte
  revert byte
  decide

theorem createStringFromBuffer_of_wordBytes {text : List Byte}
    (htext : ∀ byte ∈ text, IsWordByte byte) :
    ∃ string, createStringFromBuffer text = some string ∧ string.content = text := by
  have hflatten : (text.map fun byte => [byte]).flatten = text := by
    rw [← List.flatMap_def, List.flatMap_singleton']
  have hchars : ∀ ch ∈ text.map fun byte => [byte], IsChar ch := by
    intro ch hmem
    obtain ⟨byte, hbyte, rfl⟩ := List.mem_map.mp hmem
    exact isChar_of_isWordByte (htext byte hbyte)
  obtain ⟨string, hcreate, hcontent, -⟩ := createStringFromBuffer_flatten hchars
  rw [hflatten] at hcreate hcontent
  exact ⟨string, hcreate, hcontent⟩

theorem createItems_content {subject : List Byte} {substrings : List (ℕ × ℕ)}
    {items : List CDString} (hitems : createItems subject substrings = some items) :
    items.map CDString.content = substrings.map (substring subject) := by
  induction substrings generalizing items with
  | nil =>
      cases hitems
      rfl
  | cons bounds substrings ih =>
      rw [createItems] at hitems
      cases hitem : createStringFromBuffer (substring subject bounds) with
      | none => simp [hitem] at hitems
      | some item =>
          simp only [hitem, Option.map_eq_some_iff] at hitems
          obtain ⟨rest, hrest, rfl⟩ := hitems
          rw [List.map_cons, List.map_cons, ih hrest, content_of_createStringFromBuffer hitem]

theorem createItems_length {subject : List Byte} {substrings : List (ℕ × ℕ)}
    {items : List CDString} (hitems : createItems subject substrings = some items) :
    items.length = substrings.length := by
  simpa using congrArg List.length (createItems_content hitems)

/-- The groups of a single word have a length. -/
theorem createItems_of_wordBytes {subject : List Byte}
    (hsubject : ∀ byte ∈ subject, IsWordByte byte) (substrings : List (ℕ × ℕ)) :
    ∃ items, createItems subject substrings = some items := by
  induction substrings with
  | nil => exact ⟨[], rfl⟩
  | cons bounds substrings ih =>
      have hbytes : ∀ byte ∈ substring subject bounds, IsWordByte byte := by
        intro byte hmem
        exact hsubject byte (List.mem_of_mem_drop (List.mem_of_mem_take hmem))
      obtain ⟨item, hitem, -⟩ := createStringFromBuffer_of_wordBytes hbytes
      obtain ⟨items, hitems⟩ := ih
      exact ⟨item :: items, by simp [createItems, hitem, hitems]⟩

/-! ## The commands -/

section Commands

variable {self : Game Client Player World} {player : Player} {order : List Player}
  {command args : List Byte}

private theorem createFormatted_harmless (printed : List Byte) :
    Harmless (createFormatted printed) := by
  unfold createFormatted
  cases createStringFromBuffer (createStringFromFormat printed) <;> simp

theorem sendFormatted_harmless (printed : List Byte) :
    Harmless (sendFormatted printed : Except ChatFault (List (ChatSent Player))) := by
  have hcreate := createFormatted_harmless printed
  unfold sendFormatted
  cases hprinted : createFormatted printed with
  | error fault =>
      rw [hprinted] at hcreate
      simpa using hcreate
  | ok message => exact harmless_ok _

private theorem tellPlayers_harmless
    (hnamed : ∀ other ∈ order, (self.player other).username ≠ none) :
    Harmless (tellPlayers self args order) := by
  induction order with
  | nil => exact harmless_ok _
  | cons otherPlayer order ih =>
      have hrest := ih fun other hmem => hnamed other (List.mem_cons_of_mem _ hmem)
      rw [tellPlayers]
      cases husername : (self.player otherPlayer).username with
      | none => exact absurd husername (hnamed otherPlayer List.mem_cons_self)
      | some username =>
          cases hsent : tellPlayers self args order with
          | error fault =>
              rw [hsent] at hrest
              simpa using hrest
          | ok sent =>
              dsimp only
              split_ifs <;> exact harmless_ok _

/-- The message of `kill`. -/
def killText : List Char := "kill: command not yet implemented".toList

/-- What `kill` sends has a length, and a character to be coloured. -/
theorem sendNotYetImplemented_harmless (hkill : stringContent command = killCommand) :
    Harmless (sendNotYetImplemented player command) := by
  have hbytes : createStringFromFormat (killCommand ++ notYetImplemented) = utf8Text killText := by
    decide
  have hnul : Char.ofNat 0 ∉ killText := by decide
  obtain ⟨text, hcreate, hcontent, hlength⟩ :=
    createStringFromBuffer_flatten (isChar_of_mem_utf8Chars hnul)
  have hsize : text.length = killText.length := by
    rw [hlength, utf8Chars, List.length_map]
  have hpos : 0 < text.length := by
    rw [hsize]
    decide
  obtain ⟨message, hcolor, -⟩ :=
    svStringColorRange_text hnul hcontent .yellow hpos hsize.le
  have hformatted : createFormatted (stringContent command ++ notYetImplemented) = .ok text := by
    rw [hkill, createFormatted, hbytes, utf8Text, hcreate]
  rw [sendNotYetImplemented, hformatted]
  dsimp only
  rw [svStringColor, if_pos hpos, hcolor]
  exact harmless_ok _

/-- **Commands** that are given both strings are harmless. -/
theorem chatCommand_harmless (hown : (self.player player).username ≠ none)
    (hworld : (self.player player).world ≠ none)
    (hnamed : ∀ other ∈ order, (self.player other).username ≠ none) :
    Harmless (chatCommand self player order (some command) (some args)) := by
  unfold chatCommand
  cases husername : (self.player player).username with
  | none => exact absurd husername hown
  | some username =>
      dsimp only
      split_ifs with hempty hme htell hkill
      · exact sendFormatted_harmless _
      · exact sendFormatted_harmless _
      · cases hplace : (self.player player).world with
        | none => exact absurd hplace hworld
        | some world => exact tellPlayers_harmless hnamed
      · exact sendNotYetImplemented_harmless hkill
      · exact harmless_ok _

/-- A command that gets through looks at a world, if it looks at one at all. -/
theorem session_chatCommand {args : Option (List Byte)} {sent : List (ChatSent Player)}
    (hcommand : chatCommand self player order (some command) args = .ok sent) :
    Survival.chatCommand self player command = .ok () := by
  unfold Survival.chatCommand
  split_ifs with hout
  · obtain ⟨htell, hworld⟩ := hout
    have hnone : (self.player player).world = none := Option.isNone_iff_eq_none.mp hworld
    unfold chatCommand at hcommand
    cases husername : (self.player player).username with
    | none => simp [husername] at hcommand
    | some username =>
        cases args with
        | none => simp [husername] at hcommand
        | some args => simp [husername, htell, hnone, meCommand, tellCommand] at hcommand
  · rfl

private theorem chatCommand_missing (command : Option (List Byte)) :
    chatCommand self player order command none = .error .nullString := by
  unfold chatCommand
  split
  · next hargs => cases hargs
  · rfl

end Commands

/-! ## The messages -/

theorem createStringFromOffset_rest {string : CDString} {offset : ℕ}
    (hoffset : offset < string.length) :
    createStringFromOffset string offset 0 =
      (createStringFromBuffer (stringContent
        (string.content.drop (utf8Offset string.content offset)))).map some := by
  have hslice : ∀ data : List Byte,
      (data ++ List.replicate (strlen data) 0).take (strlen data) = stringContent data := by
    intro data
    have hle : strlen data ≤ data.length := (List.takeWhile_prefix _).length_le
    rw [List.take_append_of_le_length hle]
    exact List.prefix_iff_eq_take.mp (List.takeWhile_prefix _) |>.symm
  rw [createStringFromOffset, if_neg (Nat.not_le.mpr hoffset)]
  dsimp only
  rw [if_pos rfl, hslice]

section Messages

variable {settings : Settings World} {pcreExec : List Byte → Option (List (ℕ × ℕ))}
  {self : Game Client Player World} {player : Player} {order : List Player} {message : CDString}

/-- The text that the expression is matched with. -/
theorem createStringFromOffset_token
    (hlength : settings.commandToken.length < message.length) :
    createStringFromOffset message settings.commandToken.length 0 =
      (createStringFromBuffer (behindToken settings message)).map some :=
  createStringFromOffset_rest hlength

/-- **The bare token**: the text behind it is NULL, and fails the assertion of
`CD_RegexpMatch`. -/
theorem playerChat_bare (htoken : startsWithToken settings message = true)
    (hlength : message.length ≤ settings.commandToken.length) :
    playerChat settings pcreExec self player order message = .error .assertion := by
  rw [playerChat, if_pos htoken, createStringFromOffset, if_pos hlength]
  rfl

theorem playerChat_eq (htoken : startsWithToken settings message = true)
    (hlength : settings.commandToken.length < message.length) {string : CDString}
    (hstring : createStringFromBuffer (behindToken settings message) = some string) :
    playerChat settings pcreExec self player order message =
      match regexpMatch pcreExec 2 (some string) with
      | .error fault => .error fault
      | .ok none => .ok []
      | .ok (some found) =>
          chatCommand self player order ((found.item.getD 1 none).map CDString.content)
            ((found.item.getD 2 none).map CDString.content) := by
  rw [playerChat, if_pos htoken, createStringFromOffset_token hlength, hstring]
  rfl

theorem regexpMatch_eq {length : ℕ} {text : List Byte} {string : CDString}
    (hstring : createStringFromBuffer text = some string) :
    regexpMatch pcreExec length (some string) =
      match pcreExec text with
      | none => .ok none
      | some substrings =>
          match createItems text substrings with
          | none => .error .endless
          | some items => .ok (some
              { matched := substrings.length - 1
                item := items.map some ++ List.replicate (length + 1 - items.length) none }) := by
  rw [← content_of_createStringFromBuffer hstring]
  rfl

theorem getD_items (items : List CDString) (count index : ℕ) :
    (items.map some ++ List.replicate count none).getD index none = items[index]? := by
  rcases Nat.lt_or_ge index items.length with hindex | hindex
  · rw [List.getD_eq_getElem?_getD, List.getElem?_append_left (by simpa using hindex)]
    simp [hindex]
  · rw [List.getD_eq_getElem?_getD, List.getElem?_append_right (by simpa using hindex),
      List.getElem?_eq_none hindex, List.getElem?_replicate]
    split <;> rfl

/-- What is matched has a length, and the command gets what the groups say. -/
theorem playerChat_match (htoken : startsWithToken settings message = true)
    (hlength : settings.commandToken.length < message.length) {string : CDString}
    (hstring : createStringFromBuffer (behindToken settings message) = some string)
    {substrings : List (ℕ × ℕ)} (hmatch : pcreExec (behindToken settings message) = some substrings)
    {items : List CDString}
    (hitems : createItems (behindToken settings message) substrings = some items) :
    playerChat settings pcreExec self player order message =
      chatCommand self player order (items[1]?.map CDString.content)
        (items[2]?.map CDString.content) := by
  rw [playerChat_eq htoken hlength hstring, regexpMatch_eq hstring, hmatch]
  dsimp only
  rw [hitems]
  dsimp only
  rw [getD_items, getD_items]

/-- **A single word**: the group of the arguments is not set. -/
theorem playerChat_word (hregex : ChatRegex pcreExec)
    (htoken : startsWithToken settings message = true)
    (hlength : settings.commandToken.length < message.length)
    (hword : IsWord (behindToken settings message)) :
    playerChat settings pcreExec self player order message = .error .nullString := by
  obtain ⟨string, hstring, -⟩ := createStringFromBuffer_of_wordBytes hword.2
  obtain ⟨substrings, hmatch, hgroups⟩ := (hregex.unset_iff _).mpr hword
  obtain ⟨items, hitems⟩ := createItems_of_wordBytes hword.2 substrings
  have hmissing : items[2]? = none := by
    apply List.getElem?_eq_none
    rw [createItems_length hitems, hgroups]
  rw [playerChat_match htoken hlength hstring hmatch hitems, hmissing]
  exact chatCommand_missing _

/-- **Everything else** is given all its strings. -/
theorem playerChat_harmless (hregex : ChatRegex pcreExec)
    (hown : (self.player player).username ≠ none) (hworld : (self.player player).world ≠ none)
    (hnamed : ∀ other ∈ order, (self.player other).username ≠ none)
    (hlacks : ¬ LacksArguments settings message) :
    Harmless (playerChat settings pcreExec self player order message) := by
  by_cases htoken : startsWithToken settings message = true
  · have hlength : settings.commandToken.length < message.length := by
      by_contra hshort
      exact hlacks ⟨htoken, Or.inl (Nat.le_of_not_lt hshort)⟩
    have hword : ¬ IsWord (behindToken settings message) :=
      fun hword => hlacks ⟨htoken, Or.inr hword⟩
    cases hstring : createStringFromBuffer (behindToken settings message) with
    | none =>
        rw [playerChat, if_pos htoken, createStringFromOffset_token hlength, hstring]
        simp
    | some string =>
        cases hmatch : pcreExec (behindToken settings message) with
        | none =>
            rw [playerChat_eq htoken hlength hstring, regexpMatch_eq hstring, hmatch]
            exact harmless_ok _
        | some substrings =>
            -- a text that is no single word matches with both groups
            have hgroups : substrings.length = 3 :=
              (hregex.groups _ _ hmatch).resolve_left fun htwo =>
                hword ((hregex.unset_iff _).mp ⟨substrings, hmatch, htwo⟩)
            cases hitems : createItems (behindToken settings message) substrings with
            | none =>
                rw [playerChat_eq htoken hlength hstring, regexpMatch_eq hstring, hmatch]
                simp [hitems]
            | some items =>
                have hcount : items.length = 3 := (createItems_length hitems).trans hgroups
                have hcommand : items[1]? = some items[1] := List.getElem?_eq_getElem _
                have hargs : items[2]? = some items[2] := List.getElem?_eq_getElem _
                rw [playerChat_match htoken hlength hstring hmatch hitems, hcommand, hargs]
                exact chatCommand_harmless hown hworld hnamed
  · rw [playerChat, if_neg htoken]
    exact chatCommand_harmless hown hworld hnamed

/-- **Which messages are harmless**, from a player in a world whose players have names. -/
theorem playerChat_harmless_iff (hregex : ChatRegex pcreExec)
    (hown : (self.player player).username ≠ none) (hworld : (self.player player).world ≠ none)
    (hnamed : ∀ other ∈ order, (self.player other).username ≠ none) :
    Harmless (playerChat settings pcreExec self player order message) ↔
      ¬ LacksArguments settings message := by
  refine ⟨?_, playerChat_harmless hregex hown hworld hnamed⟩
  intro hharmless hlacks
  obtain ⟨htoken, hshort | hword⟩ := hlacks
  · rw [playerChat_bare htoken hshort] at hharmless
    simp at hharmless
  · rcases Nat.lt_or_ge settings.commandToken.length message.length with hlength | hshort
    · rw [playerChat_word hregex htoken hlength hword] at hharmless
      simp at hharmless
    · rw [playerChat_bare htoken hshort] at hharmless
      simp at hharmless

/-- A message that is dealt with runs the command that its first group names. -/
theorem command_of_playerChat (htoken : startsWithToken settings message = true)
    (hlength : settings.commandToken.length < message.length) {substrings : List (ℕ × ℕ)}
    (hmatch : pcreExec (behindToken settings message) = some substrings) {bounds : ℕ × ℕ}
    (hbounds : substrings[1]? = some bounds) {sent : List (ChatSent Player)}
    (hchat : playerChat settings pcreExec self player order message = .ok sent) :
    ∃ args, chatCommand self player order (some (substring (behindToken settings message) bounds))
      args = .ok sent := by
  cases hstring : createStringFromBuffer (behindToken settings message) with
  | none =>
      rw [playerChat, if_pos htoken, createStringFromOffset_token hlength, hstring] at hchat
      cases hchat
  | some string =>
      cases hitems : createItems (behindToken settings message) substrings with
      | none =>
          rw [playerChat_eq htoken hlength hstring, regexpMatch_eq hstring, hmatch] at hchat
          simp [hitems] at hchat
      | some items =>
          have hcommand : items[1]?.map CDString.content =
              some (substring (behindToken settings message) bounds) := by
            rw [← List.getElem?_map, createItems_content hitems, List.getElem?_map, hbounds,
              Option.map_some]
          rw [playerChat_match htoken hlength hstring hmatch hitems, hcommand] at hchat
          exact ⟨_, hchat⟩

end Messages

/-! ## The sessions -/

section Sessions

variable {settings : Settings World} {pcreExec : List Byte → Option (List (ℕ × ℕ))}

/-- A message that is dealt with here is one that the session goes on after, if both match
commands alike. -/
theorem session_playerChat {self : Game Client Player World} {player : Player}
    {order : List Player} {message : CDString} {sent : List (ChatSent Player)}
    (hregexp : ∀ subject, settings.regexpMatch subject =
      (pcreExec subject).bind fun substrings => substrings[1]?.map (substring subject))
    (hchat : playerChat settings pcreExec self player order message = .ok sent) :
    Survival.playerChat settings self (some player) message = .ok () := by
  unfold Survival.playerChat
  dsimp only
  split_ifs with htoken
  · rcases Nat.lt_or_ge settings.commandToken.length message.length with hlength | hshort
    · have htext : commandString settings message = some (behindToken settings message) := by
        rw [commandString, if_neg (Nat.not_le.mpr hlength), behindToken]
      rw [htext]
      dsimp only
      rw [hregexp]
      cases hmatch : pcreExec (behindToken settings message) with
      | none => rfl
      | some substrings =>
          rw [Option.bind_some]
          cases hbounds : substrings[1]? with
          | none => rfl
          | some bounds =>
              rw [Option.map_some]
              obtain ⟨args, hcommand⟩ :=
                command_of_playerChat htoken hlength hmatch hbounds hchat
              exact session_chatCommand hcommand
    · rw [playerChat_bare htoken hshort] at hchat
      cases hchat
  · rw [playerChat, if_neg htoken] at hchat
    exact session_chatCommand hchat

variable [DecidableEq Client] [DecidableEq Player] [DecidableEq World]
  {start state : Session Client Player World} {events : List Unit}

end Sessions

/-- What `\s` matches. -/
def IsSpaceByte (byte : Byte) : Prop :=
  byte = 0x20 ∨ byte = 0x09 ∨ byte = 0x0A ∨ byte = 0x0C ∨ byte = 0x0D

instance decidableIsSpaceByte (byte : Byte) : Decidable (IsSpaceByte byte) :=
  inferInstanceAs (Decidable (_ ∨ _))

/-- The groups of a match in a single line. -/
def commandGroups (subject : List Byte) : Option (List (ℕ × ℕ)) :=
  let word := subject.takeWhile (IsWordByte ·)
  let rest := subject.dropWhile (IsWordByte ·)
  let spaces := rest.takeWhile (IsSpaceByte ·)
  if word = [] then none
  else if rest = [] then some [(0, subject.length), (0, word.length)]
  else if spaces = [] then none
  else some [(0, subject.length), (0, word.length),
    (word.length + spaces.length, subject.length)]

theorem commandGroups_cases {subject : List Byte} {substrings : List (ℕ × ℕ)}
    (hmatch : commandGroups subject = some substrings) :
    substrings.length = 2 ∧ IsWord subject ∨ substrings.length = 3 ∧ ¬ IsWord subject := by
  have hall : subject.dropWhile (IsWordByte ·) = [] ↔ ∀ byte ∈ subject, IsWordByte byte := by
    simp
  unfold commandGroups at hmatch
  dsimp only at hmatch
  by_cases hword : subject.takeWhile (IsWordByte ·) = []
  · rw [if_pos hword] at hmatch
    cases hmatch
  · rw [if_neg hword] at hmatch
    have hne : subject ≠ [] := fun hnil => hword (by rw [hnil]; rfl)
    by_cases hrest : subject.dropWhile (IsWordByte ·) = []
    · rw [if_pos hrest, Option.some.injEq] at hmatch
      exact Or.inl ⟨by rw [← hmatch]; rfl, hne, hall.mp hrest⟩
    · rw [if_neg hrest] at hmatch
      split_ifs at hmatch
      rw [Option.some.injEq] at hmatch
      exact Or.inr ⟨by rw [← hmatch]; rfl, fun hisWord => hrest (hall.mpr hisWord.2)⟩

private theorem commandGroups_of_isWord {subject : List Byte} (hword : IsWord subject) :
    commandGroups subject = some [(0, subject.length), (0, subject.length)] := by
  have htake : subject.takeWhile (IsWordByte ·) = subject :=
    List.takeWhile_eq_self_iff.mpr (by simpa using hword.2)
  have hdrop : subject.dropWhile (IsWordByte ·) = [] :=
    List.dropWhile_eq_nil_iff.mpr (by simpa using hword.2)
  unfold commandGroups
  rw [htake, hdrop]
  dsimp only
  rw [if_neg hword.1, if_pos rfl]

theorem chatRegex_commandGroups : ChatRegex commandGroups where
  groups := by
    intro subject substrings hmatch
    exact (commandGroups_cases hmatch).imp And.left And.left
  unset_iff := by
    intro subject
    constructor
    · intro hmatch
      obtain ⟨substrings, hmatch, hlength⟩ := hmatch
      rcases commandGroups_cases hmatch with ⟨-, hword⟩ | ⟨hthree, -⟩
      · exact hword
      · omega
    · intro hword
      exact ⟨_, commandGroups_of_isWord hword, rfl⟩

/-- `"/me waves"`. -/
def waves : CDString := ⟨[0x2F, 0x6D, 0x65, 0x20, 0x77, 0x61, 0x76, 0x65, 0x73], 9, rfl⟩

/-- `"/"`. -/
def slash : CDString := plainSettings.commandToken

/-- `"/kill"`. -/
def slashKill : CDString := ⟨[0x2F, 0x6B, 0x69, 0x6C, 0x6C], 5, rfl⟩

end Craftd.Survival.Chat
