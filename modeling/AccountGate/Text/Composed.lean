import AccountGate.Text.Blank
import AccountGate.Text.Mark

/-!
The composed form of a text. A letter with a mark can be written as two characters or, where there
is one, as one character for both; the composed form takes all such characters apart, puts the marks
after each letter in the order of their classes, and then joins what can be joined.
-/

namespace AccountGate.Text

/-- For each mark the characters that it makes, every one followed by what it is made from. -/
def joinedWords : List (Nat × String) := [
  (0x300, "ÀA ÈE ÌI ǸN ÒO ÙU ẀW ỲY àa èe ìi ǹn òo ùu ẁw ỳy ῭¨ ẦÂ ỀÊ ỒÔ ǛÜ ầâ ềê ồô ǜü ẰĂ"),
  (0x300, "ằă ḔĒ ḕē ṐŌ ṑō ỜƠ ờơ ỪƯ ừư ᾺΑ ῈΕ ῊΗ ῚΙ ῸΟ ῪΥ ῺΩ ὰα ὲε ὴη ὶι ὸο ὺυ ὼω ῒϊ ῢϋ ЀЕ"),
  (0x300, "ЍИ ѐе ѝи ἂἀ ἃἁ ἊἈ ἋἉ ἒἐ ἓἑ ἚἘ ἛἙ ἢἠ ἣἡ ἪἨ ἫἩ ἲἰ ἳἱ ἺἸ ἻἹ ὂὀ ὃὁ ὊὈ ὋὉ ὒὐ ὓὑ ὛὙ"),
  (0x300, "ὢὠ ὣὡ ὪὨ ὫὩ ῍᾿ ῝῾"),
  (0x301, "ÁA ĆC ÉE ǴG ÍI ḰK ĹL ḾM ŃN ÓO ṔP ŔR ŚS ÚU ẂW ÝY ŹZ áa ćc ée ǵg íi ḱk ĺl ḿm ńn"),
  (0x301, "óo ṕp ŕr śs úu ẃw ýy źz ΅¨ ẤÂ ǺÅ ǼÆ ḈÇ ẾÊ ḮÏ ỐÔ ṌÕ ǾØ ǗÜ ấâ ǻå ǽæ ḉç ếê ḯï ốô"),
  (0x301, "ṍõ ǿø ǘü ẮĂ ắă ḖĒ ḗē ṒŌ ṓō ṸŨ ṹũ ỚƠ ớơ ỨƯ ứư ΆΑ ΈΕ ΉΗ ΊΙ ΌΟ ΎΥ ΏΩ άα έε ήη ίι"),
  (0x301, "όο ύυ ώω ΐϊ ΰϋ ϓϒ ЃГ ЌК ѓг ќк ἄἀ ἅἁ ἌἈ ἍἉ ἔἐ ἕἑ ἜἘ ἝἙ ἤἠ ἥἡ ἬἨ ἭἩ ἴἰ ἵἱ ἼἸ ἽἹ"),
  (0x301, "ὄὀ ὅὁ ὌὈ ὍὉ ὔὐ ὕὑ ὝὙ ὤὠ ὥὡ ὬὨ ὭὩ ῎᾿ ῞῾"),
  (0x302, "ÂA ĈC ÊE ĜG ĤH ÎI ĴJ ÔO ŜS ÛU ŴW ŶY ẐZ âa ĉc êe ĝg ĥh îi ĵj ôo ŝs ûu ŵw ŷy ẑz"),
  (0x302, "ẬẠ ậạ ỆẸ ệẹ ỘỌ ộọ"),
  (0x303, "ÃA ẼE ĨI ÑN ÕO ŨU ṼV ỸY ãa ẽe ĩi ñn õo ũu ṽv ỹy ẪÂ ỄÊ ỖÔ ẫâ ễê ỗô ẴĂ ẵă ỠƠ ỡơ"),
  (0x303, "ỮƯ ữư"),
  (0x304, "ĀA ĒE ḠG ĪI ŌO ŪU ȲY āa ēe ḡg īi ōo ūu ȳy ǞÄ ǢÆ ȬÕ ȪÖ ǕÜ ǟä ǣæ ȭõ ȫö ǖü ǬǪ ǭǫ"),
  (0x304, "ǠȦ ǡȧ ȰȮ ȱȯ ᾹΑ ῙΙ ῩΥ ᾱα ῑι ῡυ ӢИ ӮУ ӣи ӯу ḸḶ ḹḷ ṜṚ ṝṛ"),
  (0x306, "ĂA ĔE ĞG ĬI ŎO ŬU ăa ĕe ğg ĭi ŏo ŭu ḜȨ ḝȩ ᾸΑ ῘΙ ῨΥ ᾰα ῐι ῠυ ӐА ӖЕ ӁЖ ЙИ ЎУ ӑа"),
  (0x306, "ӗе ӂж йи ўу ẶẠ ặạ"),
  (0x307, "ȦA ḂB ĊC ḊD ĖE ḞF ĠG ḢH İI ṀM ṄN ȮO ṖP ṘR ṠS ṪT ẆW ẊX ẎY ŻZ ȧa ḃb ċc ḋd ėe ḟf"),
  (0x307, "ġg ḣh ṁm ṅn ȯo ṗp ṙr ṡs ṫt ẇw ẋx ẏy żz ṤŚ ṥś ṦŠ ṧš ẛſ ṨṢ ṩṣ 𐗉𐗒 𐗤𐗚"),
  (0x308, "ÄA ËE ḦH ÏI ÖO ÜU ẄW ẌX ŸY äa ëe ḧh ïi öo ẗt üu ẅw ẍx ÿy ṎÕ ṏõ ṺŪ ṻū ΪΙ ΫΥ ϊι"),
  (0x308, "ϋυ ϔϒ ЇІ ӒА ЁЕ ӜЖ ӞЗ ӤИ ӦО ӰУ ӴЧ ӸЫ ӬЭ ӓа ёе ӝж ӟз ӥи ӧо ӱу ӵч ӹы ӭэ їі ӚӘ ӛә"),
  (0x308, "ӪӨ ӫө"),
  (0x309, "ẢA ẺE ỈI ỎO ỦU ỶY ảa ẻe ỉi ỏo ủu ỷy ẨÂ ỂÊ ỔÔ ẩâ ểê ổô ẲĂ ẳă ỞƠ ởơ ỬƯ ửư"),
  (0x30A, "ÅA ŮU åa ůu ẘw ẙy"),
  (0x30B, "ŐO ŰU őo űu ӲУ ӳу"),
  (0x30C, "ǍA ČC ĎD ĚE ǦG ȞH ǏI ǨK ĽL ŇN ǑO ŘR ŠS ŤT ǓU ŽZ ǎa čc ďd ěe ǧg ȟh ǐi ǰj ǩk ľl"),
  (0x30C, "ňn ǒo řr šs ťt ǔu žz ǙÜ ǚü ǮƷ ǯʒ"),
  (0x30F, "ȀA ȄE ȈI ȌO ȐR ȔU ȁa ȅe ȉi ȍo ȑr ȕu ѶѴ ѷѵ"),
  (0x311, "ȂA ȆE ȊI ȎO ȒR ȖU ȃa ȇe ȋi ȏo ȓr ȗu"),
  (0x313, "ἈΑ ἘΕ ἨΗ ἸΙ ὈΟ ὨΩ ἀα ἐε ἠη ἰι ὀο ῤρ ὐυ ὠω"),
  (0x314, "ἉΑ ἙΕ ἩΗ ἹΙ ὉΟ ῬΡ ὙΥ ὩΩ ἁα ἑε ἡη ἱι ὁο ῥρ ὑυ ὡω"),
  (0x31B, "ƠO ƯU ơo ưu"),
  (0x323, "ẠA ḄB ḌD ẸE ḤH ỊI ḲK ḶL ṂM ṆN ỌO ṚR ṢS ṬT ỤU ṾV ẈW ỴY ẒZ ạa ḅb ḍd ẹe ḥh ịi ḳk"),
  (0x323, "ḷl ṃm ṇn ọo ṛr ṣs ṭt ụu ṿv ẉw ỵy ẓz ỢƠ ợơ ỰƯ ựư"),
  (0x324, "ṲU ṳu"),
  (0x325, "ḀA ḁa"),
  (0x326, "ȘS ȚT șs țt"),
  (0x327, "ÇC ḐD ȨE ĢG ḨH ĶK ĻL ŅN ŖR ŞS ŢT çc ḑd ȩe ģg ḩh ķk ļl ņn ŗr şs ţt"),
  (0x328, "ĄA ĘE ĮI ǪO ŲU ąa ęe įi ǫo ųu"),
  (0x32D, "ḒD ḘE ḼL ṊN ṰT ṶU ḓd ḙe ḽl ṋn ṱt ṷu"),
  (0x32E, "ḪH ḫh"),
  (0x330, "ḚE ḬI ṴU ḛe ḭi ṵu"),
  (0x331, "ḆB ḎD ḴK ḺL ṈN ṞR ṮT ẔZ ḇb ḏd ẖh ḵk ḻl ṉn ṟr ṯt ẕz"),
  (0x338, "≮< ≠= ≯> ↚← ↛→ ↮↔ ⇍⇐ ⇏⇒ ⇎⇔ ∄∃ ∉∈ ∌∋ ∤∣ ∦∥ ≁∼ ≄≃ ≇≅ ≉≈ ≭≍ ≢≡ ≰≤ ≱≥ ≴≲ ≵≳ ≸≶ ≹≷"),
  (0x338, "⊀≺ ⊁≻ ⋠≼ ⋡≽ ⊄⊂ ⊅⊃ ⊈⊆ ⊉⊇ ⋢⊑ ⋣⊒ ⊬⊢ ⊭⊨ ⊮⊩ ⊯⊫ ⋪⊲ ⋫⊳ ⋬⊴ ⋭⊵"),
  (0x342, "῁¨ ᾶα ῆη ῖι ῦυ ῶω ῗϊ ῧϋ ἆἀ ἇἁ ἎἈ ἏἉ ἦἠ ἧἡ ἮἨ ἯἩ ἶἰ ἷἱ ἾἸ ἿἹ ὖὐ ὗὑ ὟὙ ὦὠ ὧὡ ὮὨ"),
  (0x342, "ὯὩ ῏᾿ ῟῾"),
  (0x345, "ᾼΑ ῌΗ ῼΩ ᾴά ῄή ᾳα ῃη ῳω ῴώ ᾀἀ ᾁἁ ᾂἂ ᾃἃ ᾄἄ ᾅἅ ᾆἆ ᾇἇ ᾈἈ ᾉἉ ᾊἊ ᾋἋ ᾌἌ ᾍἍ ᾎἎ ᾏἏ ᾐἠ"),
  (0x345, "ᾑἡ ᾒἢ ᾓἣ ᾔἤ ᾕἥ ᾖἦ ᾗἧ ᾘἨ ᾙἩ ᾚἪ ᾛἫ ᾜἬ ᾝἭ ᾞἮ ᾟἯ ᾠὠ ᾡὡ ᾢὢ ᾣὣ ᾤὤ ᾥὥ ᾦὦ ᾧὧ ᾨὨ ᾩὩ ᾪὪ"),
  (0x345, "ᾫὫ ᾬὬ ᾭὭ ᾮὮ ᾯὯ ᾲὰ ῂὴ ῲὼ ᾷᾶ ῇῆ ῷῶ"),
  (0x653, "آا"),
  (0x654, "أا ؤو ئي ۂہ ۓے ۀە"),
  (0x655, "إا"),
  (0x93C, "ऩन ऱर ऴळ"),
  (0x9BE, "োে"),
  (0x9D7, "ৌে"),
  (0xB3E, "ୋେ"),
  (0xB56, "ୈେ"),
  (0xB57, "ୌେ"),
  (0xBBE, "ொெ ோே"),
  (0xBD7, "ஔஒ ௌெ"),
  (0xC56, "ైె"),
  (0xCC2, "ೊೆ"),
  (0xCD5, "ೀಿ ೇೆ ೋೊ"),
  (0xCD6, "ೈೆ"),
  (0xD3E, "ൊെ ോേ"),
  (0xD57, "ൌെ"),
  (0xDCA, "ේෙ ෝො"),
  (0xDCF, "ොෙ"),
  (0xDDF, "ෞෙ"),
  (0x102E, "ဦဥ"),
  (0x1B35, "ᬆᬅ ᬈᬇ ᬊᬉ ᬌᬋ ᬎᬍ ᬒᬑ ᬻᬺ ᬽᬼ ᭀᬾ ᭁᬿ ᭃᭂ"),
  (0x3099, "ゔう がか ぎき ぐく げけ ごこ ざさ じし ずす ぜせ ぞそ だた ぢち づつ でて どと"),
  (0x3099, "ばは びひ ぶふ べへ ぼほ ゞゝ ヴウ ガカ ギキ グク ゲケ ゴコ ザサ ジシ ズス ゼセ"),
  (0x3099, "ゾソ ダタ ヂチ ヅツ デテ ドト バハ ビヒ ブフ ベヘ ボホ ヷワ ヸヰ ヹヱ ヺヲ ヾヽ"),
  (0x309A, "ぱは ぴひ ぷふ ぺへ ぽほ パハ ピヒ プフ ペヘ ポホ"),
  (0x110BA, "𑂚𑂙 𑂜𑂛 𑂫𑂥"),
  (0x11127, "𑄮𑄱 𑄯𑄲"),
  (0x1133E, "𑍋𑍇"),
  (0x11357, "𑍌𑍇"),
  (0x113B8, "𑏇𑏂"),
  (0x113BB, "𑎅𑎄"),
  (0x113C2, "𑎎𑎋 𑏅𑏂"),
  (0x113C9, "𑎃𑎂 𑎑𑎐 𑏈𑏂"),
  (0x114B0, "𑒼𑒹"),
  (0x114BA, "𑒻𑒹"),
  (0x114BD, "𑒾𑒹"),
  (0x115AF, "𑖺𑖸 𑖻𑖹"),
  (0x11930, "𑤸𑤵"),
  (0x1611E, "𖄡𖄞"),
  (0x1611F, "𖄣𖄞 𖄦𖄡 𖄧𖄢 𖄤𖄩"),
  (0x16120, "𖄥𖄞 𖄨𖄡"),
  (0x16129, "𖄢𖄞"),
  (0x16D67, "𖵩𖵣 𖵨𖵧 𖵪𖵩")]

/-- Marks with what they join to: pairs of a character and the one made from it. -/
def joinTable : List (Nat × List (Char × Char)) :=
  joinedWords.map fun (mark, text) =>
    (mark, (pieces ' ' text.toList).filterMap fun word =>
      match word with
      | [whole, base] => some (base, whole)
      | _ => none)

/-- Each joined character with what it is made from, in the order of their numbers. -/
def splitTable : Array (Nat × Nat × Char × Char) :=
  let entries := joinTable.flatMap fun (mark, made) =>
    made.map fun (base, whole) => (whole.toNat, whole.toNat, base, Char.ofNat mark)
  (entries.mergeSort fun a b => a.1 ≤ b.1).toArray

/-- A syllable of Hangul: its number among all of them. -/
def syllable? (c : Char) : Option Nat :=
  if 0xAC00 ≤ c.toNat && c.toNat < 0xAC00 + 11172 then some (c.toNat - 0xAC00) else none

/-- The two characters that one is made from. -/
def halves? (c : Char) : Option (Char × Char) :=
  match syllable? c with
  | some n =>
    if n % 28 == 0 then
      some (Char.ofNat (0x1100 + n / 588), Char.ofNat (0x1161 + n % 588 / 28))
    else some (Char.ofNat (0xAC00 + n / 28 * 28), Char.ofNat (0x11A7 + n % 28))
  | none => runValue? splitTable c.toNat

/-- The one character for a character and what follows it. -/
def joined? (base mark : Char) : Option Char :=
  let b := base.toNat
  let m := mark.toNat
  if 0x1100 ≤ b && b < 0x1113 && 0x1161 ≤ m && m < 0x1176 then
    some (Char.ofNat (0xAC00 + ((b - 0x1100) * 21 + (m - 0x1161)) * 28))
  else if 0x11A7 < m && m < 0x11C3 && (syllable? base).any (· % 28 == 0) then
    some (Char.ofNat (b + (m - 0x11A7)))
  else joinTable.findSome? fun (other, made) => if other == m then made.lookup base else none

/-- A character taken apart, `depth` times at most. -/
def takenApart : Nat → Char → List Char
  | 0, c => [c]
  | depth + 1, c =>
    match halves? c with
    | some (base, mark) => takenApart depth base ++ [mark]
    | none => [c]

/-- Puts a character before marks in order: behind those of a lower class. -/
def insertMark (c : Char) : List Char → List Char
  | [] => [c]
  | d :: rest =>
    if combiningClass d != 0 && combiningClass d < combiningClass c then d :: insertMark c rest
    else c :: d :: rest

/-- Marks in the order of their classes; those of one class stay as they are. -/
def orderMarks (cs : List Char) : List Char := cs.foldr insertMark []

/-- Joins what follows a character to it: `base` with the marks in `waiting`, last one first, that
did not join. A mark joins if nothing of its class or a higher one stands in between. -/
def joinFrom (base : Char) (waiting : List Char) : List Char → List Char
  | [] => base :: waiting.reverse
  | c :: rest =>
    let free := match waiting with
      | [] => true
      | last :: _ => combiningClass last < combiningClass c
    match if free then joined? base c else none with
    | some whole => joinFrom whole waiting rest
    | none =>
      if combiningClass c == 0 then base :: (waiting.reverse ++ joinFrom c [] rest)
      else joinFrom base (c :: waiting) rest

/-- Marks that follow nothing stay as they are. -/
def joinAll : List Char → List Char
  | [] => []
  | c :: rest => if combiningClass c == 0 then joinFrom c [] rest else c :: joinAll rest

/-- The composed form; below U+0300 every text is its own. -/
def compose (cs : List Char) : List Char :=
  if cs.all fun c => c.toNat < 0x300 then cs
  else joinAll (orderMarks (cs.flatMap (takenApart 4)))

end AccountGate.Text
