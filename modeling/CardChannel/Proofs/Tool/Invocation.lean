import CardChannel.Proofs.Hex
import CardChannel.Block.Lemmas
import CardChannel.Tool

/-! Calls of the tool.  A `Setting` is what stays the same from one call to the next: base key,
sequence counter, level and options.  `arguments` writes out a call for a channel with this setting,
and `read?_arguments` reads it back: the values of the setting, the chaining value and the words
reach the job as they were written. -/

namespace CardChannel.Tool

theorem decode_of_octets? {n : Nat} {text : String} {a : Octets n} (h : octets? n text = some a) :
    Hex.decode text = .ok a.toList := by
  rw [octets?] at h
  cases hd : Hex.decode text with
  | error fault =>
    rw [hd] at h
    cases h
  | ok bytes =>
    rw [hd] at h
    rw [Octets.ofBytes?_eq_some_iff.mp h]

/-- A block that was printed is read back. -/
theorem block?_encodeUpper (block : Block) : block? (Hex.encodeUpper block.toBytes) = some block := by
  have hoctets : octets? 8 (Hex.encodeUpper block.toBytes) =
      some ⟨block.toBytes, Block.length_toBytes block⟩ := by
    rw [octets?, Hex.decode_encodeUpper]
    exact Octets.ofBytes?_eq_some_iff.mpr rfl
  rw [block?, hoctets, Option.map_some, Block.ofOctets, Block.ofList_toBytes]

/-- The text is not taken for an option. -/
def Plain (text : String) : Prop := text.toList.head? ≠ some '-'

instance (text : String) : Decidable (Plain text) :=
  inferInstanceAs (Decidable (text.toList.head? ≠ some '-'))

theorem plain_of_decode {text : String} {bytes : List UInt8} (h : Hex.decode text = .ok bytes) :
    Plain text := Hex.head?_ne h rfl rfl

theorem plain_of_octets? {n : Nat} {text : String} {a : Octets n} (h : octets? n text = some a) :
    Plain text := plain_of_decode (decode_of_octets? h)

theorem plain_of_optional? {α : Type} {read : String → Option α} {text : Option String}
    {value : Option α} (h : optional? read text = some value)
    (hread : ∀ {text a}, read text = some a → Plain text) : ∀ text' ∈ text, Plain text' := by
  rintro text' hmem
  obtain rfl : text = some text' := hmem
  obtain ⟨a, ha, -⟩ := Option.map_eq_some_iff.mp h
  exact hread ha

theorem plain_of_byte? {text : String} {byte : UInt8} (h : byte? text = some byte) : Plain text := by
  obtain ⟨a, ha, -⟩ := Option.map_eq_some_iff.mp h
  exact plain_of_octets? ha

theorem plain_of_block? {text : String} {block : Block} (h : block? text = some block) :
    Plain text := by
  obtain ⟨a, ha, -⟩ := Option.map_eq_some_iff.mp h
  exact plain_of_octets? ha

theorem Plain.ofChars {text : String} (h : Plain text) (known : List Flag) :
    Item.ofChars known text.toList = .word := by
  unfold Plain at h
  unfold Item.ofChars
  split <;> simp_all

/-- An option and its value as they stand among the arguments, or nothing without a value. -/
def given (name : String) : Option String → List String
  | none => []
  | some value => [name, value]

namespace Arguments

variable {known : List Flag} {order : WordOrder} {arg value : String} {flag : Flag}
  {rest : List String}

theorem read_word_last (h : Plain arg) :
    read known .last (arg :: rest) = some ⟨[], arg :: rest⟩ := by
  simp only [read, h.ofChars]

theorem read_word_any (h : Plain arg) :
    read known .any (arg :: rest) = (read known .any rest).map (addWord arg) := by
  simp only [read, h.ofChars]

theorem read_words (h : ∀ word ∈ rest, Plain word) : read known .any rest = some ⟨[], rest⟩ := by
  induction rest with
  | nil => rfl
  | cons word rest ih =>
    rw [read_word_any (h word List.mem_cons_self),
      ih fun other hmem => h other (List.mem_cons_of_mem _ hmem)]
    rfl

theorem read_option (hname : Item.ofChars known arg.toList = .option flag none)
    (hvalue : Plain value) :
    read known order (arg :: value :: rest) =
      (read known order rest).bind (addOption flag value) := by
  rw [read.eq_def]
  simp only [hname, hvalue.ofChars, if_true]

/-- An option that may be left out. -/
def withOption (flag : Flag) (value : Option String) (args : Arguments) : Option Arguments :=
  value.elim (some args) fun value => addOption flag value args

theorem read_given {value : Option String}
    (hname : Item.ofChars known arg.toList = .option flag none) (hvalue : ∀ text ∈ value, Plain text) :
    read known order (given arg value ++ rest) =
      (read known order rest).bind (withOption flag value) := by
  cases value with
  | none => exact (Option.bind_fun_some _).symm
  | some text => exact read_option hname (hvalue text rfl)

end Arguments

/-- What stays the same from call to call. -/
structure Setting where
  key : Option String
  counter : String
  level : Option String
  parameter : Option String

namespace Setting

/-- The arguments that follow the name of a job. -/
def channelArguments (s : Setting) (icv : Option String) (words : List String) : List String :=
  given "-l" s.level ++ (given "-p" s.parameter ++ (given "--icv" icv ++ words))

/-- A job for a channel with this setting that starts from `icv`. -/
def arguments (s : Setting) (job : String) (icv : Option String) (words : List String) :
    List String :=
  given "-k" s.key ++ (given "-s" (some s.counter) ++ job :: s.channelArguments icv words)

/-- No text of the setting is taken for an option. -/
structure Plain (s : Setting) : Prop where
  key : ∀ text ∈ s.key, Tool.Plain text
  counter : Tool.Plain s.counter
  level : ∀ text ∈ s.level, Tool.Plain text
  parameter : ∀ text ∈ s.parameter, Tool.Plain text

variable {s : Setting} {icv : Option String} {words : List String}

theorem read_channelArguments (h : s.Plain) (hicv : ∀ text ∈ icv, Tool.Plain text)
    (hwords : ∀ word ∈ words, Tool.Plain word) :
    ∃ args, Arguments.read [.level, .parameter, .icv] .any (s.channelArguments icv words) =
        some args ∧
      args.value? .level = s.level ∧ args.value? .parameter = s.parameter ∧
      args.value? .icv = icv ∧ args.words = words := by
  rw [channelArguments, Arguments.read_given rfl h.level, Arguments.read_given rfl h.parameter,
    Arguments.read_given rfl hicv, Arguments.read_words hwords]
  obtain ⟨key, counter, level, parameter⟩ := s
  cases level <;> cases parameter <;> cases icv <;> exact ⟨_, rfl, rfl, rfl, rfl, rfl⟩

theorem read_arguments {job : String} (h : s.Plain) (hjob : Tool.Plain job) (icv : Option String)
    (words : List String) :
    ∃ args, Arguments.read [.key, .sequenceCounter] .last (s.arguments job icv words) =
        some args ∧
      args.value? .key = s.key ∧ args.value? .sequenceCounter = some s.counter ∧
      args.words = job :: s.channelArguments icv words := by
  have hcounter : ∀ text ∈ some s.counter, Tool.Plain text := by
    rintro text ⟨⟩
    exact h.counter
  rw [arguments, Arguments.read_given rfl h.key, Arguments.read_given rfl hcounter,
    Arguments.read_word_last hjob]
  obtain ⟨key, counter, level, parameter⟩ := s
  cases key <;> exact ⟨_, rfl, rfl, rfl, rfl⟩

/-- The arguments ask for this counter and this channel. -/
structure Asks (s : Setting) (icv : Option String) (counter : SequenceCounter)
    (channel : ChannelRequest) : Prop where
  key : ∀ text ∈ s.key, Tool.Plain text
  counter : octets? 2 s.counter = some counter
  level : ∃ bits, optional? byte? s.level = some bits ∧ channel.level = bits.getD 0x01
  options : ∃ byte, optional? byte? s.parameter = some byte ∧
    channel.options = (byte.map Options.mk).getD .default
  icv : optional? block? icv = some channel.icv

section Asks

variable {counter : SequenceCounter} {channel : ChannelRequest}

theorem Asks.plain (h : s.Asks icv counter channel) : s.Plain := by
  obtain ⟨bits, hbits, -⟩ := h.level
  obtain ⟨byte, hbyte, -⟩ := h.options
  exact ⟨h.key, plain_of_octets? h.counter, plain_of_optional? hbits plain_of_byte?,
    plain_of_optional? hbyte plain_of_byte?⟩

theorem Asks.read_channel (h : s.Asks icv counter channel)
    (hwords : ∀ word ∈ words, Tool.Plain word) :
    ∃ args, Arguments.read [.level, .parameter, .icv] .any (s.channelArguments icv words) =
        some args ∧
      ChannelRequest.ofArguments? args = some channel ∧ args.words = words := by
  obtain ⟨args, hread, hlevel, hparameter, hicv, hargs⟩ :=
    read_channelArguments h.plain (plain_of_optional? h.icv plain_of_block?) hwords
  obtain ⟨bits, hbits, hlevelBits⟩ := h.level
  obtain ⟨byte, hbyte, hoptions⟩ := h.options
  refine ⟨args, hread, ?_, hargs⟩
  rw [ChannelRequest.ofArguments?, hlevel, hparameter, hicv, hbits, hbyte, h.icv]
  obtain ⟨level, options, icv⟩ := channel
  cases hlevelBits
  cases hoptions
  rfl

theorem Asks.read?_arguments {job : String} {task : Job} (h : s.Asks icv counter channel)
    (hjob : Tool.Plain job) (htask : Job.read? job (s.channelArguments icv words) = some task) :
    Request.read? (s.arguments job icv words) = some ⟨s.key, counter, task⟩ := by
  obtain ⟨args, hread, hkey, hcounter, hwords⟩ := read_arguments h.plain hjob icv words
  rw [Request.read?, hread]
  simp only [bind, Option.bind, hcounter, h.counter, hwords, htask, hkey, pure]

theorem Asks.read?_wrap {apdu : String} (h : s.Asks icv counter channel) (hapdu : Tool.Plain apdu) :
    Request.read? (s.arguments "wrap" icv [apdu]) = some ⟨s.key, counter, .wrap channel apdu⟩ := by
  have hwords : ∀ word ∈ [apdu], Tool.Plain word := by simpa using hapdu
  obtain ⟨args, hread, hchannel, hargs⟩ := h.read_channel hwords
  refine h.read?_arguments (by decide) ?_
  simp only [Job.read?, hread, bind, Option.bind, hchannel, hargs]

theorem Asks.read?_unwrap {apdu response : String} (h : s.Asks icv counter channel)
    (hapdu : Tool.Plain apdu) (hresponse : Tool.Plain response) :
    Request.read? (s.arguments "unwrap" icv [apdu, response]) =
      some ⟨s.key, counter, .unwrap channel apdu response⟩ := by
  have hwords : ∀ word ∈ [apdu, response], Tool.Plain word := by simp [hapdu, hresponse]
  obtain ⟨args, hread, hchannel, hargs⟩ := h.read_channel hwords
  refine h.read?_arguments (by decide) ?_
  simp only [Job.read?, hread, bind, Option.bind, hchannel, hargs]

end Asks

/-- The setting is that of a channel with these keys, options and level. -/
structure Describes (s : Setting) (keys : SessionKeys) (options : Options)
    (level : SecurityLevel) : Prop where
  keys : ∃ counter, octets? 2 s.counter = some counter ∧
    sessionKeys ⟨s.key, counter, .deriveKeys⟩ = .ok keys
  options : ∃ byte, optional? byte? s.parameter = some byte ∧
    (byte.map Options.mk).getD .default = options
  level : ∃ bits, optional? byte? s.level = some bits ∧
    SecurityLevel.ofBits (bits.getD 0x01) = .ok level

/-- A base key that is used was read. -/
theorem plain_of_sessionKeys {counter : SequenceCounter} {job : Job} {keys : SessionKeys}
    (h : sessionKeys ⟨s.key, counter, job⟩ = .ok keys) : ∀ text ∈ s.key, Tool.Plain text := by
  rintro text hmem
  have htext : s.key = some text := hmem
  rw [sessionKeys] at h
  obtain ⟨set, hset, -⟩ := bind_eq_ok_iff.mp h
  simp only [htext, baseKeySet] at hset
  obtain ⟨bytes, hbytes, -⟩ := bind_eq_ok_iff.mp hset
  exact plain_of_decode (mapError_eq_ok_iff.mp hbytes)

theorem Describes.exists_asks {keys : SessionKeys} {options : Options} {level : SecurityLevel}
    {seed : Option Block} (h : s.Describes keys options level)
    (hicv : optional? block? icv = some seed) :
    ∃ counter channel, s.Asks icv counter channel ∧ ∀ job,
      openChannel ⟨s.key, counter, job⟩ channel =
        (Channel.create keys options level seed maxShortData).mapError .channel := by
  obtain ⟨counter, hcounter, hkeys⟩ := h.keys
  obtain ⟨byte, hbyte, rfl⟩ := h.options
  obtain ⟨bits, hbits, hlevel⟩ := h.level
  refine ⟨counter, ⟨bits.getD 0x01, _, seed⟩,
    ⟨plain_of_sessionKeys hkeys, hcounter, ⟨bits, hbits, rfl⟩, ⟨byte, hbyte, rfl⟩, hicv⟩,
    fun job => ?_⟩
  have hkeys : sessionKeys ⟨s.key, counter, job⟩ = .ok keys := hkeys
  rw [openChannel, hkeys]
  simp only [bind, Except.bind, hlevel]
  rfl

end Setting

end CardChannel.Tool
