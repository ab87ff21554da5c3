import RecordGraph.Text.RunTable

/-!
The script of every code point.  The table lists the runs of equal script from code point 0 upwards:
the four-letter script code, then the length of the run in hexadecimal.
-/

namespace RecordGraph.Text

/-- Every script code with the other names of the script. -/
def scriptNames : List (String × List String) :=
  [ ("Adlm", ["Adlam"]),
    ("Aghb", ["Caucasian_Albanian"]),
    ("Ahom", ["Ahom"]),
    ("Arab", ["Arabic"]),
    ("Armi", ["Imperial_Aramaic"]),
    ("Armn", ["Armenian"]),
    ("Avst", ["Avestan"]),
    ("Bali", ["Balinese"]),
    ("Bamu", ["Bamum"]),
    ("Bass", ["Bassa_Vah"]),
    ("Batk", ["Batak"]),
    ("Beng", ["Bengali"]),
    ("Bhks", ["Bhaiksuki"]),
    ("Bopo", ["Bopomofo"]),
    ("Brah", ["Brahmi"]),
    ("Brai", ["Braille"]),
    ("Bugi", ["Buginese"]),
    ("Buhd", ["Buhid"]),
    ("Cakm", ["Chakma"]),
    ("Cans", ["Canadian_Aboriginal"]),
    ("Cari", ["Carian"]),
    ("Cham", ["Cham"]),
    ("Cher", ["Cherokee"]),
    ("Chrs", ["Chorasmian"]),
    ("Copt", ["Coptic", "Qaac"]),
    ("Cpmn", ["Cypro_Minoan"]),
    ("Cprt", ["Cypriot"]),
    ("Cyrl", ["Cyrillic"]),
    ("Deva", ["Devanagari"]),
    ("Diak", ["Dives_Akuru"]),
    ("Dogr", ["Dogra"]),
    ("Dsrt", ["Deseret"]),
    ("Dupl", ["Duployan"]),
    ("Egyp", ["Egyptian_Hieroglyphs"]),
    ("Elba", ["Elbasan"]),
    ("Elym", ["Elymaic"]),
    ("Ethi", ["Ethiopic"]),
    ("Geor", ["Georgian"]),
    ("Glag", ["Glagolitic"]),
    ("Gong", ["Gunjala_Gondi"]),
    ("Gonm", ["Masaram_Gondi"]),
    ("Goth", ["Gothic"]),
    ("Gran", ["Grantha"]),
    ("Grek", ["Greek"]),
    ("Gujr", ["Gujarati"]),
    ("Guru", ["Gurmukhi"]),
    ("Hang", ["Hangul"]),
    ("Hani", ["Han"]),
    ("Hano", ["Hanunoo"]),
    ("Hatr", ["Hatran"]),
    ("Hebr", ["Hebrew"]),
    ("Hira", ["Hiragana"]),
    ("Hluw", ["Anatolian_Hieroglyphs"]),
    ("Hmng", ["Pahawh_Hmong"]),
    ("Hmnp", ["Nyiakeng_Puachue_Hmong"]),
    ("Hung", ["Old_Hungarian"]),
    ("Ital", ["Old_Italic"]),
    ("Java", ["Javanese"]),
    ("Kali", ["Kayah_Li"]),
    ("Kana", ["Katakana"]),
    ("Kawi", ["Kawi"]),
    ("Khar", ["Kharoshthi"]),
    ("Khmr", ["Khmer"]),
    ("Khoj", ["Khojki"]),
    ("Kits", ["Khitan_Small_Script"]),
    ("Knda", ["Kannada"]),
    ("Kthi", ["Kaithi"]),
    ("Lana", ["Tai_Tham"]),
    ("Laoo", ["Lao"]),
    ("Latn", ["Latin"]),
    ("Lepc", ["Lepcha"]),
    ("Limb", ["Limbu"]),
    ("Lina", ["Linear_A"]),
    ("Linb", ["Linear_B"]),
    ("Lisu", ["Lisu"]),
    ("Lyci", ["Lycian"]),
    ("Lydi", ["Lydian"]),
    ("Mahj", ["Mahajani"]),
    ("Maka", ["Makasar"]),
    ("Mand", ["Mandaic"]),
    ("Mani", ["Manichaean"]),
    ("Marc", ["Marchen"]),
    ("Medf", ["Medefaidrin"]),
    ("Mend", ["Mende_Kikakui"]),
    ("Merc", ["Meroitic_Cursive"]),
    ("Mero", ["Meroitic_Hieroglyphs"]),
    ("Mlym", ["Malayalam"]),
    ("Modi", ["Modi"]),
    ("Mong", ["Mongolian"]),
    ("Mroo", ["Mro"]),
    ("Mtei", ["Meetei_Mayek"]),
    ("Mult", ["Multani"]),
    ("Mymr", ["Myanmar"]),
    ("Nagm", ["Nag_Mundari"]),
    ("Nand", ["Nandinagari"]),
    ("Narb", ["Old_North_Arabian"]),
    ("Nbat", ["Nabataean"]),
    ("Newa", ["Newa"]),
    ("Nkoo", ["Nko"]),
    ("Nshu", ["Nushu"]),
    ("Ogam", ["Ogham"]),
    ("Olck", ["Ol_Chiki"]),
    ("Orkh", ["Old_Turkic"]),
    ("Orya", ["Oriya"]),
    ("Osge", ["Osage"]),
    ("Osma", ["Osmanya"]),
    ("Ougr", ["Old_Uyghur"]),
    ("Palm", ["Palmyrene"]),
    ("Pauc", ["Pau_Cin_Hau"]),
    ("Perm", ["Old_Permic"]),
    ("Phag", ["Phags_Pa"]),
    ("Phli", ["Inscriptional_Pahlavi"]),
    ("Phlp", ["Psalter_Pahlavi"]),
    ("Phnx", ["Phoenician"]),
    ("Plrd", ["Miao"]),
    ("Prti", ["Inscriptional_Parthian"]),
    ("Rjng", ["Rejang"]),
    ("Rohg", ["Hanifi_Rohingya"]),
    ("Runr", ["Runic"]),
    ("Samr", ["Samaritan"]),
    ("Sarb", ["Old_South_Arabian"]),
    ("Saur", ["Saurashtra"]),
    ("Sgnw", ["SignWriting"]),
    ("Shaw", ["Shavian"]),
    ("Shrd", ["Sharada"]),
    ("Sidd", ["Siddham"]),
    ("Sind", ["Khudawadi"]),
    ("Sinh", ["Sinhala"]),
    ("Sogd", ["Sogdian"]),
    ("Sogo", ["Old_Sogdian"]),
    ("Sora", ["Sora_Sompeng"]),
    ("Soyo", ["Soyombo"]),
    ("Sund", ["Sundanese"]),
    ("Sylo", ["Syloti_Nagri"]),
    ("Syrc", ["Syriac"]),
    ("Tagb", ["Tagbanwa"]),
    ("Takr", ["Takri"]),
    ("Tale", ["Tai_Le"]),
    ("Talu", ["New_Tai_Lue"]),
    ("Taml", ["Tamil"]),
    ("Tang", ["Tangut"]),
    ("Tavt", ["Tai_Viet"]),
    ("Telu", ["Telugu"]),
    ("Tfng", ["Tifinagh"]),
    ("Tglg", ["Tagalog"]),
    ("Thaa", ["Thaana"]),
    ("Thai", ["Thai"]),
    ("Tibt", ["Tibetan"]),
    ("Tirh", ["Tirhuta"]),
    ("Tnsa", ["Tangsa"]),
    ("Toto", ["Toto"]),
    ("Ugar", ["Ugaritic"]),
    ("Vaii", ["Vai"]),
    ("Vith", ["Vithkuqi"]),
    ("Wara", ["Warang_Citi"]),
    ("Wcho", ["Wancho"]),
    ("Xpeo", ["Old_Persian"]),
    ("Xsux", ["Cuneiform"]),
    ("Yezi", ["Yezidi"]),
    ("Yiii", ["Yi"]),
    ("Zanb", ["Zanabazar_Square"]),
    ("Zinh", ["Inherited", "Qaai"]),
    ("Zyyy", ["Common"]),
    ("Zzzz", ["Unknown"]),
    ("Gara", ["Garay"]),
    ("Gukh", ["Gurung_Khema"]),
    ("Krai", ["Kirat_Rai"]),
    ("Onao", ["Ol_Onal"]),
    ("Sunu", ["Sunuwar"]),
    ("Todr", ["Todhri"]),
    ("Tutg", ["Tulu_Tigalari"]) ]

/-- The runs of equal script, from code point 0 upwards. -/
def scriptRuns : RunTable String := RunTable.ofTagged 4 id <|
  String.join
    [ "Zyyy41Latn1aZyyy6Latn1aZyyy2fLatn1ZyyyfLatn1Zyyy5Latn17Zyyy1Latn1fZyyy1Latn1c1Zyyy27Latn5Z",
      "yyy5Bopo2Zyyy14Zinh70Grek4Zyyy1Grek3Zzzz2Grek4Zyyy1Grek1Zzzz4Grek1Zyyy1Grek1Zyyy1Grek3Zzzz",
      "1Grek1Zzzz1Grek14Zzzz1Grek3fCopteGrek10Cyrl85Zinh2Cyrla9Zzzz1Armn26Zzzz2Armn32Zzzz2Armn3Zz",
      "zz1Hebr37Zzzz8Hebr1bZzzz4Hebr6ZzzzbArab5Zyyy1Arab6Zyyy1ArabeZyyy1Arab3Zyyy1Arab20Zyyy1Arab",
      "aZinhbArab1aZinh1Arab6cZyyy1Arab22SyrceZzzz1Syrc3cZzzz2Syrc3Arab30Thaa32ZzzzeNkoo3bZzzz2Nk",
      "oo3Samr2eZzzz2SamrfZzzz1Mand1cZzzz2Mand1Zzzz1SyrcbZzzz5Arab1fZzzz1Arab2Zzzz5Arab4bZyyy1Ara",
      "b1dDeva51Zinh4DevafZyyy2Deva1aBeng4Zzzz1Beng8Zzzz2Beng2Zzzz2Beng16Zzzz1Beng7Zzzz1Beng1Zzzz",
      "3Beng4Zzzz2Beng9Zzzz2Beng2Zzzz2Beng4Zzzz8Beng1Zzzz4Beng2Zzzz1Beng5Zzzz2Beng19Zzzz2Guru3Zzz",
      "z1Guru6Zzzz4Guru2Zzzz2Guru16Zzzz1Guru7Zzzz1Guru2Zzzz1Guru2Zzzz1Guru2Zzzz2Guru1Zzzz1Guru5Zz",
      "zz4Guru2Zzzz2Guru3Zzzz3Guru1Zzzz7Guru4Zzzz1Guru1Zzzz7Guru11ZzzzaGujr3Zzzz1Gujr9Zzzz1Gujr3Z",
      "zzz1Gujr16Zzzz1Gujr7Zzzz1Gujr2Zzzz1Gujr5Zzzz2GujraZzzz1Gujr3Zzzz1Gujr3Zzzz2Gujr1ZzzzfGujr4",
      "Zzzz2GujrcZzzz7Gujr7Zzzz1Orya3Zzzz1Orya8Zzzz2Orya2Zzzz2Orya16Zzzz1Orya7Zzzz1Orya2Zzzz1Orya",
      "5Zzzz2Orya9Zzzz2Orya2Zzzz2Orya3Zzzz7Orya3Zzzz4Orya2Zzzz1Orya5Zzzz2Orya12ZzzzaTaml2Zzzz1Tam",
      "l6Zzzz3Taml3Zzzz1Taml4Zzzz3Taml2Zzzz1Taml1Zzzz1Taml2Zzzz3Taml2Zzzz3Taml3Zzzz3TamlcZzzz4Tam",
      "l5Zzzz3Taml3Zzzz1Taml4Zzzz2Taml1Zzzz6Taml1ZzzzeTaml15Zzzz5TeludZzzz1Telu3Zzzz1Telu17Zzzz1T",
      "elu10Zzzz2Telu9Zzzz1Telu3Zzzz1Telu4Zzzz7Telu2Zzzz1Telu3Zzzz2Telu1Zzzz2Telu4Zzzz2TeluaZzzz7",
      "Telu9KndadZzzz1Knda3Zzzz1Knda17Zzzz1KndaaZzzz1Knda5Zzzz2Knda9Zzzz1Knda3Zzzz1Knda4Zzzz7Knda",
      "2Zzzz6Knda2Zzzz1Knda4Zzzz2KndaaZzzz1Knda3ZzzzcMlymdZzzz1Mlym3Zzzz1Mlym33Zzzz1Mlym3Zzzz1Mly",
      "m6Zzzz4Mlym10Zzzz2Mlym1aZzzz1Sinh3Zzzz1Sinh12Zzzz3Sinh18Zzzz1Sinh9Zzzz1Sinh1Zzzz2Sinh7Zzzz",
      "3Sinh1Zzzz4Sinh6Zzzz1Sinh1Zzzz1Sinh8Zzzz6SinhaZzzz2Sinh3ZzzzcThai3aZzzz4Zyyy1Thai1cZzzz25L",
      "aoo2Zzzz1Laoo1Zzzz1Laoo5Zzzz1Laoo18Zzzz1Laoo1Zzzz1Laoo17Zzzz2Laoo5Zzzz1Laoo1Zzzz1Laoo7Zzzz",
      "1LaooaZzzz2Laoo4Zzzz20Tibt48Zzzz1Tibt24Zzzz4Tibt27Zzzz1Tibt24Zzzz1TibtfZzzz1Tibt7Zyyy4Tibt",
      "2Zzzz25Mymra0Geor26Zzzz1Geor1Zzzz5Geor1Zzzz2Geor2bZyyy1Geor4Hang100Ethi49Zzzz1Ethi4Zzzz2Et",
      "hi7Zzzz1Ethi1Zzzz1Ethi4Zzzz2Ethi29Zzzz1Ethi4Zzzz2Ethi21Zzzz1Ethi4Zzzz2Ethi7Zzzz1Ethi1Zzzz1",
      "Ethi4Zzzz2EthifZzzz1Ethi39Zzzz1Ethi4Zzzz2Ethi43Zzzz2Ethi20Zzzz3Ethi1aZzzz6Cher56Zzzz2Cher6",
      "Zzzz2Cans280Ogam1dZzzz3Runr4bZyyy3RunrbZzzz7Tglg16Zzzz9Tglg1Hano15Zyyy2Zzzz9Buhd14ZzzzcTag",
      "bdZzzz1Tagb3Zzzz1Tagb2ZzzzcKhmr5eZzzz2KhmraZzzz6KhmraZzzz6Mong2Zyyy2Mong1Zyyy1Mong14Zzzz6M",
      "ong59Zzzz7Mong2bZzzz5Cans46ZzzzaLimb1fZzzz1LimbcZzzz4LimbcZzzz4Limb1Zzzz3LimbcTale1eZzzz2T",
      "ale5ZzzzbTalu2cZzzz4Talu1aZzzz6TalubZzzz3Talu2Khmr20Bugi1cZzzz2Bugi2Lana3fZzzz1Lana1dZzzz2",
      "LanabZzzz6LanaaZzzz6LanaeZzzz2Zinh1fZzzz31Bali4dZzzz1Bali32Sund40Batk34Zzzz8Batk4Lepc38Zzz",
      "z3LepcfZzzz3Lepc3Olck30CyrlbZzzz5Geor2bZzzz2Geor3Sund8Zzzz8Zinh3Zyyy1ZinhdZyyy1Zinh7Zyyy4Z",
      "inh1Zyyy6Zinh1Zyyy3Zinh2Zyyy1Zzzz5Latn26Grek5Cyrl1Latn31Grek5Latn4Grek5LatndCyrl1Latn46Gre",
      "k1Zinh40Latn100Grek16Zzzz2Grek6Zzzz2Grek26Zzzz2Grek6Zzzz2Grek8Zzzz1Grek1Zzzz1Grek1Zzzz1Gre",
      "k1Zzzz1Grek1fZzzz2Grek35Zzzz1GrekfZzzz1GrekeZzzz2Grek6Zzzz1Grek13Zzzz2Grek3Zzzz1Grek9Zzzz1",
      "ZyyycZinh2Zyyy57Zzzz1ZyyybLatn1Zzzz2ZyyybLatn1ZyyyfZzzz1LatndZzzz3Zyyy21ZzzzfZinh21ZzzzfZy",
      "yy26Grek1Zyyy3Latn2Zyyy6Latn1Zyyy1bLatn1Zyyy11Latn29Zyyy3Zzzz4Zyyy29aZzzz16ZyyybZzzz15Zyyy",
      "3a0Brai100Zyyy274Zzzz2Zyyy20Zzzz1Zyyy69Glag60Latn20Copt74Zzzz5Copt7Geor26Zzzz1Geor1Zzzz5Ge",
      "or1Zzzz2Tfng38Zzzz7Tfng2ZzzzeTfng1Ethi17Zzzz9Ethi7Zzzz1Ethi7Zzzz1Ethi7Zzzz1Ethi7Zzzz1Ethi7",
      "Zzzz1Ethi7Zzzz1Ethi7Zzzz1Ethi7Zzzz1Cyrl20Zyyy5eZzzz22Hani1aZzzz1Hani59ZzzzcHanid6Zzzz1aZyy",
      "y15Hani1Zyyy1Hani1Zyyy19Hani9Zinh4Hang2Zyyy8Hani4Zyyy4Zzzz1Hira56Zzzz2Zinh2Zyyy2Hira3Zyyy1",
      "Kana5aZyyy2Kana3Zzzz5Bopo2bZzzz1Hang5eZzzz1Zyyy10Bopo20Zyyy26Zzzz9Zyyy1Kana10Hang1fZzzz1Zy",
      "yy40Hang1fZyyy51Kana2fZyyy1Kana58Zyyya8Hani19c0Zyyy40Hani5200Yiii48dZzzz3Yiii37Zzzz9Lisu30",
      "Vaii12cZzzz14Cyrl60Bamu58Zzzz8Zyyy22Latn66Zyyy3Latn43Zzzz2Latn2Zzzz1Latn1Zzzz1Latn8Zzzz15L",
      "atneSylo2dZzzz3ZyyyaZzzz6Phag38Zzzz8Saur46Zzzz8SaurcZzzz6Deva20Kali2eZyyy1Kali1Rjng24Zzzzb",
      "Rjng1Hang1dZzzz3Java4eZzzz1Zyyy1JavaaZzzz4Java2Mymr1fZzzz1Cham37Zzzz9ChameZzzz2ChamaZzzz2C",
      "ham4Mymr20Tavt43Zzzz18Tavt5Mtei17ZzzzaEthi6Zzzz2Ethi6Zzzz2Ethi6Zzzz9Ethi7Zzzz1Ethi7Zzzz1La",
      "tn2bZyyy1Latn9Grek1Latn4Zyyy2Zzzz4Cher50Mtei2eZzzz2MteiaZzzz6Hang2ba4ZzzzcHang17Zzzz4Hang3",
      "1Zzzz2104Hani16eZzzz2Hani6aZzzz26Latn7ZzzzcArmn5Zzzz5Hebr1aZzzz1Hebr5Zzzz1Hebr1Zzzz1Hebr2Z",
      "zzz1Hebr2Zzzz1HebraArab73Zzzz10Arab16bZyyy2Arab50Zzzz2Arab36Zzzz7Arab1Zzzz20Arab10Zinh10Zy",
      "yyaZzzz6ZinheCyrl2Zyyy23Zzzz1Zyyy13Zzzz1Zyyy4Zzzz4Arab5Zzzz1Arab87Zzzz2Zyyy1Zzzz1Zyyy20Lat",
      "n1aZyyy6Latn1aZyyybKanaaZyyy1Kana2dZyyy2Hang1fZzzz3Hang6Zzzz2Hang6Zzzz2Hang6Zzzz2Hang3Zzzz",
      "3Zyyy7Zzzz1Zyyy7ZzzzaZyyy5Zzzz2LinbcZzzz1Linb1aZzzz1Linb13Zzzz1Linb2Zzzz1LinbfZzzz2LinbeZz",
      "zz22Linb7bZzzz5Zyyy3Zzzz4Zyyy2dZzzz3Zyyy9Grek4fZzzz1ZyyydZzzz3Grek1Zzzz2fZyyy2dZinh1Zzzz82",
      "Lyci1dZzzz3Cari31ZzzzfZinh1Zyyy1bZzzz4Ital24Zzzz9Ital3Goth1bZzzz5Perm2bZzzz5Ugar1eZzzz1Uga",
      "r1Xpeo24Zzzz4XpeoeZzzz2aDsrt50Shaw30Osma1eZzzz2OsmaaZzzz6Osge24Zzzz4Osge24Zzzz4Elba28Zzzz8",
      "Aghb34ZzzzbAghb1VithbZzzz1VithfZzzz1Vith7Zzzz1Vith2Zzzz1VithbZzzz1VithfZzzz1Vith7Zzzz1Vith",
      "2Zzzz3Todr34ZzzzcLina137Zzzz9Lina16ZzzzaLina8Zzzz18Latn6Zzzz1Latn2aZzzz1Latn9Zzzz45Cprt6Zz",
      "zz2Cprt1Zzzz1Cprt2cZzzz1Cprt2Zzzz3Cprt1Zzzz2Cprt1Armi16Zzzz1Armi9Palm20Nbat1fZzzz8Nbat9Zzz",
      "z30Hatr13Zzzz1Hatr2Zzzz5Hatr5Phnx1cZzzz3Phnx1Lydi1aZzzz5Lydi1Zzzz40Mero20Merc18Zzzz4Merc14",
      "Zzzz2Merc2eKhar4Zzzz1Khar2Zzzz5Khar8Zzzz1Khar3Zzzz1Khar1dZzzz2Khar3Zzzz4KharaZzzz7Khar9Zzz",
      "z7Sarb20Narb20Zzzz20Mani27Zzzz4ManicZzzz9Avst36Zzzz3Avst7Prti16Zzzz2Prti8Phli13Zzzz5Phli8P",
      "hlp12Zzzz7Phlp4ZzzzcPhlp7Zzzz50Orkh49Zzzz37Hung33ZzzzdHung33Zzzz7Hung6Rohg28Zzzz8RohgaZzzz",
      "6Gara26Zzzz3Gara1dZzzz8Gara2Zzzzd0Arab1fZzzz1Yezi2aZzzz1Yezi3Zzzz2Yezi2Zzzz10Arab3Zzzz37Ar",
      "ab4Sogo28Zzzz8Sogd2aZzzz16Ougr1aZzzz26Chrs1cZzzz14Elym17Zzzz9Brah4eZzzz4Brah24Zzzz9Brah1Kt",
      "hi43ZzzzaKthi1Zzzz2Sora19Zzzz7SoraaZzzz6Cakm35Zzzz1Cakm12Zzzz8Mahj27Zzzz9Shrd60Zzzz1Sinh14",
      "ZzzzbKhoj12Zzzz1Khoj2fZzzz3eMult7Zzzz1Mult1Zzzz1Mult4Zzzz1MultfZzzz1MultbZzzz6Sind3bZzzz5S",
      "indaZzzz6Gran4Zzzz1Gran8Zzzz2Gran2Zzzz2Gran16Zzzz1Gran7Zzzz1Gran2Zzzz1Gran5Zzzz1Zinh1Gran9",
      "Zzzz2Gran2Zzzz2Gran3Zzzz2Gran1Zzzz6Gran1Zzzz5Gran7Zzzz2Gran7Zzzz3Gran5ZzzzbTutgaZzzz1Tutg1",
      "Zzzz2Tutg1Zzzz1Tutg26Zzzz1TutgaZzzz1Tutg1Zzzz2Tutg1Zzzz1Tutg4Zzzz1TutgaZzzz1Tutg2Zzzz8Tutg",
      "2Zzzz1dNewa5cZzzz1Newa5Zzzz1eTirh48Zzzz8TirhaZzzza6Sidd36Zzzz2Sidd26Zzzz22Modi45ZzzzbModia",
      "Zzzz6MongdZzzz13Takr3aZzzz6TakraZzzz6Mymr14Zzzz1cAhom1bZzzz2AhomfZzzz4Ahom17Zzzzb9Dogr3cZz",
      "zz64Wara53ZzzzcWara1Diak7Zzzz2Diak1Zzzz2Diak8Zzzz1Diak2Zzzz1Diak1eZzzz1Diak2Zzzz2DiakcZzzz",
      "9DiakaZzzz46Nand8Zzzz2Nand2eZzzz2NandbZzzz1bZanb48Zzzz8Soyo53ZzzzdCans10Pauc39Zzzz7DevaaZz",
      "zzb6Sunu22ZzzzeSunuaZzzz6Bhks9Zzzz1Bhks2dZzzz1BhkseZzzzaBhks1dZzzz3Marc20Zzzz2Marc16Zzzz1M",
      "arceZzzz49Gonm7Zzzz1Gonm2Zzzz1Gonm2cZzzz3Gonm1Zzzz1Gonm2Zzzz1Gonm9Zzzz8GonmaZzzz6Gong6Zzzz",
      "1Gong2Zzzz1Gong25Zzzz1Gong2Zzzz1Gong6Zzzz7GongaZzzz136Maka19Zzzz7Kawi11Zzzz1Kawi29Zzzz3Kaw",
      "i1dZzzz55Lisu1ZzzzfTaml32ZzzzdTaml1Xsux39aZzzz66Xsux6fZzzz1Xsux5ZzzzbXsuxc4Zzzza4cCpmn63Zz",
      "zzdEgyp456ZzzzaEgypf9bZzzz5Hluw247Zzzz1ab9Gukh3aZzzz6c6Bamu239Zzzz7Mroo1fZzzz1MrooaZzzz4Mr",
      "oo2Tnsa4fZzzz1TnsaaZzzz6Bass1eZzzz2Bass6ZzzzaHmng46ZzzzaHmngaZzzz1Hmng7Zzzz1Hmng15Zzzz5Hmn",
      "g13Zzzz1b0Krai3aZzzzc6Medf5bZzzz65Plrd4bZzzz4Plrd39Zzzz7Plrd11Zzzz40Tang1Nshu1Hani2Kits1Zz",
      "zzbHani2ZzzzeTang17f8Zzzz8Tang300Kits1d6Zzzz29Kits1Tang9Zzzz22e7Kana4Zzzz1Kana7Zzzz1Kana2Z",
      "zzz1Kana1Hira11fKana3ZzzzfHira1Zzzz1dHira3Zzzz2Kana1ZzzzeKana4Zzzz8Nshu18cZzzz904Dupl6bZzz",
      "z5DupldZzzz3Dupl9Zzzz7DuplaZzzz2Dupl4Zyyy4Zzzzf5cZyyyfaZzzz6Zyyy1b4Zzzz4cZinh2eZzzz2Zinh17",
      "Zzzz9Zyyy74Zzzz3cZyyyf6ZzzzaZyyy27Zzzz2Zyyy3eZinh3Zyyy11Zinh8Zyyy2Zinh7Zyyy1eZinh4Zyyy3dZz",
      "zz15Grek46Zzzz7aZyyy14ZzzzcZyyy14ZzzzcZyyy57Zzzz9Zyyy19Zzzz87Zyyy55Zzzz1Zyyy47Zzzz1Zyyy2Zz",
      "zz2Zyyy1Zzzz2Zyyy2Zzzz2Zyyy4Zzzz1ZyyycZzzz1Zyyy1Zzzz1Zyyy7Zzzz1Zyyy41Zzzz1Zyyy4Zzzz2Zyyy8Z",
      "zzz1Zyyy7Zzzz1Zyyy1cZzzz1Zyyy4Zzzz1Zyyy5Zzzz1Zyyy1Zzzz3Zyyy7Zzzz1Zyyy154Zzzz2Zyyy124Zzzz2Z",
      "yyy32Sgnw28cZzzzfSgnw5Zzzz1SgnwfZzzz450Latn1fZzzz6Latn6Zzzzd5Glag7Zzzz1Glag11Zzzz2Glag7Zzz",
      "z1Glag2Zzzz1Glag5Zzzz5Cyrl3eZzzz21Cyrl1Zzzz70Hmnp2dZzzz3HmnpeZzzz2HmnpaZzzz4Hmnp2Zzzz140To",
      "to1fZzzz11Wcho3aZzzz5Wcho1Zzzz1d0Nagm2aZzzzd6Onao2bZzzz4Onao1Zzzz1e0Ethi7Zzzz1Ethi4Zzzz1Et",
      "hi2Zzzz1EthifZzzz1Mendc5Zzzz2Mend10Zzzz29Adlm4cZzzz4AdlmaZzzz4Adlm2Zzzz311Zyyy44Zzzz4cZyyy",
      "3dZzzzc2Arab4Zzzz1Arab1bZzzz1Arab2Zzzz1Arab1Zzzz2Arab1Zzzz1ArabaZzzz1Arab4Zzzz1Arab1Zzzz1A",
      "rab1Zzzz6Arab1Zzzz4Arab1Zzzz1Arab1Zzzz1Arab1Zzzz1Arab3Zzzz1Arab2Zzzz1Arab1Zzzz2Arab1Zzzz1A",
      "rab1Zzzz1Arab1Zzzz1Arab1Zzzz1Arab1Zzzz1Arab2Zzzz1Arab1Zzzz2Arab4Zzzz1Arab7Zzzz1Arab4Zzzz1A",
      "rab4Zzzz1Arab1Zzzz1ArabaZzzz1Arab11Zzzz5Arab3Zzzz1Arab5Zzzz1Arab11Zzzz34Arab2Zzzz10eZyyy2c",
      "Zzzz4Zyyy64ZzzzcZyyyfZzzz2ZyyyfZzzz1ZyyyfZzzz1Zyyy25ZzzzaZyyyaeZzzz38Zyyy1aHira1Zyyy2Zzzzd",
      "Zyyy2cZzzz4Zyyy9Zzzz7Zyyy2ZzzzeZyyy6Zzzz9aZyyy3d8Zzzz4Zyyy11Zzzz3ZyyydZzzz3Zyyy77Zzzz4Zyyy",
      "5fZzzz6ZyyycZzzz4Zyyy1ZzzzfZyyycZzzz4Zyyy38Zzzz8ZyyyaZzzz6Zyyy28Zzzz8Zyyy1eZzzz2ZyyycZzzz4",
      "Zyyy2Zzzz3eZyyy154ZzzzcZyyyeZzzz2ZyyydZzzz3ZyyyaZzzz5Zyyy38Zzzz7ZyyyfZzzz2ZyyybZzzz6Zyyy9Z",
      "zzz7Zyyy93Zzzz1Zyyy66Zzzz406Hania6e0Zzzz20Hani103aZzzz6HanideZzzz2Hani1682ZzzzeHani1d31Zzz",
      "zfHani26eZzzz9a2Hani21eZzzz5e2Hani134bZzzz5Hani1060Zzzzadc51Zyyy1Zzzz1eZyyy60Zzzz80Zinhf0Z",
      "zzz2fe10" ]

/-- The four-letter code of a character's script. -/
def script (c : Char) : String := scriptRuns.find c.toNat "Zzzz"

end RecordGraph.Text
