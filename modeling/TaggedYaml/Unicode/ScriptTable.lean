import TaggedYaml.Unicode.Run

/-!
# Scripts

Each code point has one script, which has a code of four letters; `Zzzz` stands for none, `Zyyy` for
characters of many scripts and `Zinh` for marks that take the script of what they stand on.  Some
characters are used with a few scripts only, and these are listed by script.
-/

namespace TaggedYaml.Unicode

/-- The scripts of all code points. -/
def scriptLines : List String :=
  ["65Zyyy 26Latn 6Zyyy 26Latn 47Zyyy Latn 15Zyyy Latn 5Zyyy 23Latn Zyyy 31Latn Zyyy 449Latn",
    "39Zyyy 5Latn 5Zyyy 2Bopo 20Zyyy 112Zinh 4Grek Zyyy 3Grek 2Zzzz 4Grek Zyyy Grek 4Zzzz Grek",
    "Zyyy Grek Zyyy 3Grek Zzzz Grek Zzzz 20Grek Zzzz 63Grek 14Copt 16Grek 133Cyrl 2Zinh 169Cyrl",
    "Zzzz 38Armn 2Zzzz 50Armn 2Zzzz 3Armn Zzzz 55Hebr 8Zzzz 27Hebr 4Zzzz 6Hebr 11Zzzz 5Arab",
    "Zyyy 6Arab Zyyy 14Arab Zyyy 3Arab Zyyy 32Arab Zyyy 10Arab 11Zinh 26Arab Zinh 108Arab Zyyy",
    "34Arab 14Syrc Zzzz 60Syrc 2Zzzz 3Syrc 48Arab 50Thaa 14Zzzz 59Nkoo 2Zzzz 3Nkoo 46Samr 2Zzzz",
    "15Samr Zzzz 28Mand 2Zzzz Mand Zzzz 11Syrc 5Zzzz 31Arab Zzzz 2Arab 5Zzzz 75Arab Zyyy 29Arab",
    "81Deva 4Zinh 15Deva 2Zyyy 26Deva 4Beng Zzzz 8Beng 2Zzzz 2Beng 2Zzzz 22Beng Zzzz 7Beng Zzzz",
    "Beng 3Zzzz 4Beng 2Zzzz 9Beng 2Zzzz 2Beng 2Zzzz 4Beng 8Zzzz Beng 4Zzzz 2Beng Zzzz 5Beng",
    "2Zzzz 25Beng 2Zzzz 3Guru Zzzz 6Guru 4Zzzz 2Guru 2Zzzz 22Guru Zzzz 7Guru Zzzz 2Guru Zzzz",
    "2Guru Zzzz 2Guru 2Zzzz Guru Zzzz 5Guru 4Zzzz 2Guru 2Zzzz 3Guru 3Zzzz Guru 7Zzzz 4Guru Zzzz",
    "Guru 7Zzzz 17Guru 10Zzzz 3Gujr Zzzz 9Gujr Zzzz 3Gujr Zzzz 22Gujr Zzzz 7Gujr Zzzz 2Gujr",
    "Zzzz 5Gujr 2Zzzz 10Gujr Zzzz 3Gujr Zzzz 3Gujr 2Zzzz Gujr 15Zzzz 4Gujr 2Zzzz 12Gujr 7Zzzz",
    "7Gujr Zzzz 3Orya Zzzz 8Orya 2Zzzz 2Orya 2Zzzz 22Orya Zzzz 7Orya Zzzz 2Orya Zzzz 5Orya",
    "2Zzzz 9Orya 2Zzzz 2Orya 2Zzzz 3Orya 7Zzzz 3Orya 4Zzzz 2Orya Zzzz 5Orya 2Zzzz 18Orya 10Zzzz",
    "2Taml Zzzz 6Taml 3Zzzz 3Taml Zzzz 4Taml 3Zzzz 2Taml Zzzz Taml Zzzz 2Taml 3Zzzz 2Taml 3Zzzz",
    "3Taml 3Zzzz 12Taml 4Zzzz 5Taml 3Zzzz 3Taml Zzzz 4Taml 2Zzzz Taml 6Zzzz Taml 14Zzzz 21Taml",
    "5Zzzz 13Telu Zzzz 3Telu Zzzz 23Telu Zzzz 16Telu 2Zzzz 9Telu Zzzz 3Telu Zzzz 4Telu 7Zzzz",
    "2Telu Zzzz 3Telu 2Zzzz Telu 2Zzzz 4Telu 2Zzzz 10Telu 7Zzzz 9Telu 13Knda Zzzz 3Knda Zzzz",
    "23Knda Zzzz 10Knda Zzzz 5Knda 2Zzzz 9Knda Zzzz 3Knda Zzzz 4Knda 7Zzzz 2Knda 6Zzzz 2Knda",
    "Zzzz 4Knda 2Zzzz 10Knda Zzzz 3Knda 12Zzzz 13Mlym Zzzz 3Mlym Zzzz 51Mlym Zzzz 3Mlym Zzzz",
    "6Mlym 4Zzzz 16Mlym 2Zzzz 26Mlym Zzzz 3Sinh Zzzz 18Sinh 3Zzzz 24Sinh Zzzz 9Sinh Zzzz Sinh",
    "2Zzzz 7Sinh 3Zzzz Sinh 4Zzzz 6Sinh Zzzz Sinh Zzzz 8Sinh 6Zzzz 10Sinh 2Zzzz 3Sinh 12Zzzz",
    "58Thai 4Zzzz Zyyy 28Thai 37Zzzz 2Laoo Zzzz Laoo Zzzz 5Laoo Zzzz 24Laoo Zzzz Laoo Zzzz",
    "23Laoo 2Zzzz 5Laoo Zzzz Laoo Zzzz 7Laoo Zzzz 10Laoo 2Zzzz 4Laoo 32Zzzz 72Tibt Zzzz 36Tibt",
    "4Zzzz 39Tibt Zzzz 36Tibt Zzzz 15Tibt Zzzz 7Tibt 4Zyyy 2Tibt 37Zzzz 160Mymr 38Geor Zzzz",
    "Geor 5Zzzz Geor 2Zzzz 43Geor Zyyy 4Geor 256Hang 73Ethi Zzzz 4Ethi 2Zzzz 7Ethi Zzzz Ethi",
    "Zzzz 4Ethi 2Zzzz 41Ethi Zzzz 4Ethi 2Zzzz 33Ethi Zzzz 4Ethi 2Zzzz 7Ethi Zzzz Ethi Zzzz",
    "4Ethi 2Zzzz 15Ethi Zzzz 57Ethi Zzzz 4Ethi 2Zzzz 67Ethi 2Zzzz 32Ethi 3Zzzz 26Ethi 6Zzzz",
    "86Cher 2Zzzz 6Cher 2Zzzz 640Cans 29Ogam 3Zzzz 75Runr 3Zyyy 11Runr 7Zzzz 22Tglg 9Zzzz Tglg",
    "21Hano 2Zyyy 9Zzzz 20Buhd 12Zzzz 13Tagb Zzzz 3Tagb Zzzz 2Tagb 12Zzzz 94Khmr 2Zzzz 10Khmr",
    "6Zzzz 10Khmr 6Zzzz 2Mong 2Zyyy Mong Zyyy 20Mong 6Zzzz 89Mong 7Zzzz 43Mong 5Zzzz 70Cans",
    "10Zzzz 31Limb Zzzz 12Limb 4Zzzz 12Limb 4Zzzz Limb 3Zzzz 12Limb 30Tale 2Zzzz 5Tale 11Zzzz",
    "44Talu 4Zzzz 26Talu 6Zzzz 11Talu 3Zzzz 2Talu 32Khmr 28Bugi 2Zzzz 2Bugi 63Lana Zzzz 29Lana",
    "2Zzzz 11Lana 6Zzzz 10Lana 6Zzzz 14Lana 2Zzzz 31Zinh 49Zzzz 77Bali Zzzz 50Bali 64Sund",
    "52Batk 8Zzzz 4Batk 56Lepc 3Zzzz 15Lepc 3Zzzz 3Lepc 48Olck 11Cyrl 5Zzzz 43Geor 2Zzzz 3Geor",
    "8Sund 8Zzzz 3Zinh Zyyy 13Zinh Zyyy 7Zinh 4Zyyy Zinh 6Zyyy Zinh 3Zyyy 2Zinh Zyyy 5Zzzz",
    "38Latn 5Grek Cyrl 49Latn 5Grek 4Latn 5Grek 13Latn Cyrl 70Latn Grek 64Zinh 256Latn 22Grek",
    "2Zzzz 6Grek 2Zzzz 38Grek 2Zzzz 6Grek 2Zzzz 8Grek Zzzz Grek Zzzz Grek Zzzz Grek Zzzz 31Grek",
    "2Zzzz 53Grek Zzzz 15Grek Zzzz 14Grek 2Zzzz 6Grek Zzzz 19Grek 2Zzzz 3Grek Zzzz 9Grek Zzzz",
    "12Zyyy 2Zinh 87Zyyy Zzzz 11Zyyy Latn 2Zzzz 11Zyyy Latn 15Zyyy Zzzz 13Latn 3Zzzz 33Zyyy",
    "15Zzzz 33Zinh 15Zzzz 38Zyyy Grek 3Zyyy 2Latn 6Zyyy Latn 27Zyyy Latn 17Zyyy 41Latn 3Zyyy",
    "4Zzzz 666Zyyy 22Zzzz 11Zyyy 21Zzzz 928Zyyy 256Brai 628Zyyy 2Zzzz 32Zyyy Zzzz 105Zyyy",
    "96Glag 32Latn 116Copt 5Zzzz 7Copt 38Geor Zzzz Geor 5Zzzz Geor 2Zzzz 56Tfng 7Zzzz 2Tfng",
    "14Zzzz Tfng 23Ethi 9Zzzz 7Ethi Zzzz 7Ethi Zzzz 7Ethi Zzzz 7Ethi Zzzz 7Ethi Zzzz 7Ethi Zzzz",
    "7Ethi Zzzz 7Ethi Zzzz 32Cyrl 94Zyyy 34Zzzz 26Hani Zzzz 89Hani 12Zzzz 214Hani 26Zzzz 21Zyyy",
    "Hani Zyyy Hani 25Zyyy 9Hani 4Zinh 2Hang 8Zyyy 4Hani 4Zyyy Zzzz 86Hira 2Zzzz 2Zinh 2Zyyy",
    "3Hira Zyyy 90Kana 2Zyyy 3Kana 5Zzzz 43Bopo Zzzz 94Hang Zzzz 16Zyyy 32Bopo 38Zyyy 9Zzzz",
    "Zyyy 16Kana 31Hang Zzzz 64Zyyy 31Hang 81Zyyy 47Kana Zyyy 88Kana 168Zyyy 6592Hani 64Zyyy",
    "20992Hani 1165Yiii 3Zzzz 55Yiii 9Zzzz 48Lisu 300Vaii 20Zzzz 96Cyrl 88Bamu 8Zzzz 34Zyyy",
    "102Latn 3Zyyy 67Latn 2Zzzz 2Latn Zzzz Latn Zzzz 8Latn 21Zzzz 14Latn 45Sylo 3Zzzz 10Zyyy",
    "6Zzzz 56Phag 8Zzzz 70Saur 8Zzzz 12Saur 6Zzzz 32Deva 46Kali Zyyy Kali 36Rjng 11Zzzz Rjng",
    "29Hang 3Zzzz 78Java Zzzz Zyyy 10Java 4Zzzz 2Java 31Mymr Zzzz 55Cham 9Zzzz 14Cham 2Zzzz",
    "10Cham 2Zzzz 4Cham 32Mymr 67Tavt 24Zzzz 5Tavt 23Mtei 10Zzzz 6Ethi 2Zzzz 6Ethi 2Zzzz 6Ethi",
    "9Zzzz 7Ethi Zzzz 7Ethi Zzzz 43Latn Zyyy 9Latn Grek 4Latn 2Zyyy 4Zzzz 80Cher 46Mtei 2Zzzz",
    "10Mtei 6Zzzz 11172Hang 12Zzzz 23Hang 4Zzzz 49Hang 8452Zzzz 366Hani 2Zzzz 106Hani 38Zzzz",
    "7Latn 12Zzzz 5Armn 5Zzzz 26Hebr Zzzz 5Hebr Zzzz Hebr Zzzz 2Hebr Zzzz 2Hebr Zzzz 10Hebr",
    "115Arab 16Zzzz 363Arab 2Zyyy 80Arab 2Zzzz 54Arab 7Zzzz Arab 32Zzzz 16Arab 16Zinh 10Zyyy",
    "6Zzzz 14Zinh 2Cyrl 35Zyyy Zzzz 19Zyyy Zzzz 4Zyyy 4Zzzz 5Arab Zzzz 135Arab 2Zzzz Zyyy Zzzz",
    "32Zyyy 26Latn 6Zyyy 26Latn 11Zyyy 10Kana Zyyy 45Kana 2Zyyy 31Hang 3Zzzz 6Hang 2Zzzz 6Hang",
    "2Zzzz 6Hang 2Zzzz 3Hang 3Zzzz 7Zyyy Zzzz 7Zyyy 10Zzzz 5Zyyy 2Zzzz 12Linb Zzzz 26Linb Zzzz",
    "19Linb Zzzz 2Linb Zzzz 15Linb 2Zzzz 14Linb 34Zzzz 123Linb 5Zzzz 3Zyyy 4Zzzz 45Zyyy 3Zzzz",
    "9Zyyy 79Grek Zzzz 13Zyyy 3Zzzz Grek 47Zzzz 45Zyyy Zinh 130Zzzz 29Lyci 3Zzzz 49Cari 15Zzzz",
    "Zinh 27Zyyy 4Zzzz 36Ital 9Zzzz 3Ital 27Goth 5Zzzz 43Perm 5Zzzz 30Ugar Zzzz Ugar 36Xpeo",
    "4Zzzz 14Xpeo 42Zzzz 80Dsrt 48Shaw 30Osma 2Zzzz 10Osma 6Zzzz 36Osge 4Zzzz 36Osge 4Zzzz",
    "40Elba 8Zzzz 52Aghb 11Zzzz Aghb 11Vith Zzzz 15Vith Zzzz 7Vith Zzzz 2Vith Zzzz 11Vith Zzzz",
    "15Vith Zzzz 7Vith Zzzz 2Vith 3Zzzz 52Todr 12Zzzz 311Lina 9Zzzz 22Lina 10Zzzz 8Lina 24Zzzz",
    "6Latn Zzzz 42Latn Zzzz 9Latn 69Zzzz 6Cprt 2Zzzz Cprt Zzzz 44Cprt Zzzz 2Cprt 3Zzzz Cprt",
    "2Zzzz Cprt 22Armi Zzzz 9Armi 32Palm 31Nbat 8Zzzz 9Nbat 48Zzzz 19Hatr Zzzz 2Hatr 5Zzzz",
    "5Hatr 28Phnx 3Zzzz Phnx 26Lydi 5Zzzz Lydi 64Zzzz 32Mero 24Merc 4Zzzz 20Merc 2Zzzz 46Merc",
    "4Khar Zzzz 2Khar 5Zzzz 8Khar Zzzz 3Khar Zzzz 29Khar 2Zzzz 3Khar 4Zzzz 10Khar 7Zzzz 9Khar",
    "7Zzzz 32Sarb 32Narb 32Zzzz 39Mani 4Zzzz 12Mani 9Zzzz 54Avst 3Zzzz 7Avst 22Prti 2Zzzz 8Prti",
    "19Phli 5Zzzz 8Phli 18Phlp 7Zzzz 4Phlp 12Zzzz 7Phlp 80Zzzz 73Orkh 55Zzzz 51Hung 13Zzzz",
    "51Hung 7Zzzz 6Hung 40Rohg 8Zzzz 10Rohg 6Zzzz 38Gara 3Zzzz 29Gara 8Zzzz 2Gara 208Zzzz",
    "31Arab Zzzz 42Yezi Zzzz 3Yezi 2Zzzz 2Yezi 16Zzzz 3Arab 55Zzzz 4Arab 40Sogo 8Zzzz 42Sogd",
    "22Zzzz 26Ougr 38Zzzz 28Chrs 20Zzzz 23Elym 9Zzzz 78Brah 4Zzzz 36Brah 9Zzzz Brah 67Kthi",
    "10Zzzz Kthi 2Zzzz 25Sora 7Zzzz 10Sora 6Zzzz 53Cakm Zzzz 18Cakm 8Zzzz 39Mahj 9Zzzz 96Shrd",
    "Zzzz 20Sinh 11Zzzz 18Khoj Zzzz 47Khoj 62Zzzz 7Mult Zzzz Mult Zzzz 4Mult Zzzz 15Mult Zzzz",
    "11Mult 6Zzzz 59Sind 5Zzzz 10Sind 6Zzzz 4Gran Zzzz 8Gran 2Zzzz 2Gran 2Zzzz 22Gran Zzzz",
    "7Gran Zzzz 2Gran Zzzz 5Gran Zzzz Zinh 9Gran 2Zzzz 2Gran 2Zzzz 3Gran 2Zzzz Gran 6Zzzz Gran",
    "5Zzzz 7Gran 2Zzzz 7Gran 3Zzzz 5Gran 11Zzzz 10Tutg Zzzz Tutg 2Zzzz Tutg Zzzz 38Tutg Zzzz",
    "10Tutg Zzzz Tutg 2Zzzz Tutg Zzzz 4Tutg Zzzz 10Tutg Zzzz 2Tutg 8Zzzz 2Tutg 29Zzzz 92Newa",
    "Zzzz 5Newa 30Zzzz 72Tirh 8Zzzz 10Tirh 166Zzzz 54Sidd 2Zzzz 38Sidd 34Zzzz 69Modi 11Zzzz",
    "10Modi 6Zzzz 13Mong 19Zzzz 58Takr 6Zzzz 10Takr 6Zzzz 20Mymr 28Zzzz 27Ahom 2Zzzz 15Ahom",
    "4Zzzz 23Ahom 185Zzzz 60Dogr 100Zzzz 83Wara 12Zzzz Wara 7Diak 2Zzzz Diak 2Zzzz 8Diak Zzzz",
    "2Diak Zzzz 30Diak Zzzz 2Diak 2Zzzz 12Diak 9Zzzz 10Diak 70Zzzz 8Nand 2Zzzz 46Nand 2Zzzz",
    "11Nand 27Zzzz 72Zanb 8Zzzz 83Soyo 13Zzzz 16Cans 57Pauc 7Zzzz 10Deva 182Zzzz 34Sunu 14Zzzz",
    "10Sunu 6Zzzz 9Bhks Zzzz 45Bhks Zzzz 14Bhks 10Zzzz 29Bhks 3Zzzz 32Marc 2Zzzz 22Marc Zzzz",
    "14Marc 73Zzzz 7Gonm Zzzz 2Gonm Zzzz 44Gonm 3Zzzz Gonm Zzzz 2Gonm Zzzz 9Gonm 8Zzzz 10Gonm",
    "6Zzzz 6Gong Zzzz 2Gong Zzzz 37Gong Zzzz 2Gong Zzzz 6Gong 7Zzzz 10Gong 310Zzzz 25Maka 7Zzzz",
    "17Kawi Zzzz 41Kawi 3Zzzz 29Kawi 85Zzzz Lisu 15Zzzz 50Taml 13Zzzz Taml 922Xsux 102Zzzz",
    "111Xsux Zzzz 5Xsux 11Zzzz 196Xsux 2636Zzzz 99Cpmn 13Zzzz 1110Egyp 10Zzzz 3995Egyp 5Zzzz",
    "583Hluw 6841Zzzz 58Gukh 1734Zzzz 569Bamu 7Zzzz 31Mroo Zzzz 10Mroo 4Zzzz 2Mroo 79Tnsa Zzzz",
    "10Tnsa 6Zzzz 30Bass 2Zzzz 6Bass 10Zzzz 70Hmng 10Zzzz 10Hmng Zzzz 7Hmng Zzzz 21Hmng 5Zzzz",
    "19Hmng 432Zzzz 58Krai 198Zzzz 91Medf 101Zzzz 75Plrd 4Zzzz 57Plrd 7Zzzz 17Plrd 64Zzzz Tang",
    "Nshu 2Hani Kits 11Zzzz 2Hani 14Zzzz 6136Tang 8Zzzz 768Tang 470Kits 41Zzzz Kits 9Tang",
    "8935Zzzz 4Kana Zzzz 7Kana Zzzz 2Kana Zzzz Kana 287Hira 3Kana 15Zzzz Hira 29Zzzz 3Hira",
    "2Zzzz Kana 14Zzzz 4Kana 8Zzzz 396Nshu 2308Zzzz 107Dupl 5Zzzz 13Dupl 3Zzzz 9Dupl 7Zzzz",
    "10Dupl 2Zzzz 4Dupl 4Zyyy 3932Zzzz 250Zyyy 6Zzzz 436Zyyy 76Zzzz 46Zinh 2Zzzz 23Zinh 9Zzzz",
    "116Zyyy 60Zzzz 246Zyyy 10Zzzz 39Zyyy 2Zzzz 62Zyyy 3Zinh 17Zyyy 8Zinh 2Zyyy 7Zinh 30Zyyy",
    "4Zinh 61Zyyy 21Zzzz 70Grek 122Zzzz 20Zyyy 12Zzzz 20Zyyy 12Zzzz 87Zyyy 9Zzzz 25Zyyy 135Zzzz",
    "85Zyyy Zzzz 71Zyyy Zzzz 2Zyyy 2Zzzz Zyyy 2Zzzz 2Zyyy 2Zzzz 4Zyyy Zzzz 12Zyyy Zzzz Zyyy",
    "Zzzz 7Zyyy Zzzz 65Zyyy Zzzz 4Zyyy 2Zzzz 8Zyyy Zzzz 7Zyyy Zzzz 28Zyyy Zzzz 4Zyyy Zzzz 5Zyyy",
    "Zzzz Zyyy 3Zzzz 7Zyyy Zzzz 340Zyyy 2Zzzz 292Zyyy 2Zzzz 50Zyyy 652Sgnw 15Zzzz 5Sgnw Zzzz",
    "15Sgnw 1104Zzzz 31Latn 6Zzzz 6Latn 213Zzzz 7Glag Zzzz 17Glag 2Zzzz 7Glag Zzzz 2Glag Zzzz",
    "5Glag 5Zzzz 62Cyrl 33Zzzz Cyrl 112Zzzz 45Hmnp 3Zzzz 14Hmnp 2Zzzz 10Hmnp 4Zzzz 2Hmnp",
    "320Zzzz 31Toto 17Zzzz 58Wcho 5Zzzz Wcho 464Zzzz 42Nagm 214Zzzz 43Onao 4Zzzz Onao 480Zzzz",
    "7Ethi Zzzz 4Ethi Zzzz 2Ethi Zzzz 15Ethi Zzzz 197Mend 2Zzzz 16Mend 41Zzzz 76Adlm 4Zzzz",
    "10Adlm 4Zzzz 2Adlm 785Zzzz 68Zyyy 76Zzzz 61Zyyy 194Zzzz 4Arab Zzzz 27Arab Zzzz 2Arab Zzzz",
    "Arab 2Zzzz Arab Zzzz 10Arab Zzzz 4Arab Zzzz Arab Zzzz Arab 6Zzzz Arab 4Zzzz Arab Zzzz Arab",
    "Zzzz Arab Zzzz 3Arab Zzzz 2Arab Zzzz Arab 2Zzzz Arab Zzzz Arab Zzzz Arab Zzzz Arab Zzzz",
    "Arab Zzzz 2Arab Zzzz Arab 2Zzzz 4Arab Zzzz 7Arab Zzzz 4Arab Zzzz 4Arab Zzzz Arab Zzzz",
    "10Arab Zzzz 17Arab 5Zzzz 3Arab Zzzz 5Arab Zzzz 17Arab 52Zzzz 2Arab 270Zzzz 44Zyyy 4Zzzz",
    "100Zyyy 12Zzzz 15Zyyy 2Zzzz 15Zyyy Zzzz 15Zyyy Zzzz 37Zyyy 10Zzzz 174Zyyy 56Zzzz 26Zyyy",
    "Hira 2Zyyy 13Zzzz 44Zyyy 4Zzzz 9Zyyy 7Zzzz 2Zyyy 14Zzzz 6Zyyy 154Zzzz 984Zyyy 4Zzzz 17Zyyy",
    "3Zzzz 13Zyyy 3Zzzz 119Zyyy 4Zzzz 95Zyyy 6Zzzz 12Zyyy 4Zzzz Zyyy 15Zzzz 12Zyyy 4Zzzz 56Zyyy",
    "8Zzzz 10Zyyy 6Zzzz 40Zyyy 8Zzzz 30Zyyy 2Zzzz 12Zyyy 4Zzzz 2Zyyy 62Zzzz 340Zyyy 12Zzzz",
    "14Zyyy 2Zzzz 13Zyyy 3Zzzz 10Zyyy 5Zzzz 56Zyyy 7Zzzz 15Zyyy 2Zzzz 11Zyyy 6Zzzz 9Zyyy 7Zzzz",
    "147Zyyy Zzzz 102Zyyy 1030Zzzz 42720Hani 32Zzzz 4154Hani 6Zzzz 222Hani 2Zzzz 5762Hani",
    "14Zzzz 7473Hani 15Zzzz 622Hani 2466Zzzz 542Hani 1506Zzzz 4939Hani 5Zzzz 4192Hani",
    "711761Zzzz Zyyy 30Zzzz 96Zyyy 128Zzzz 240Zinh 196112Zzzz"]

/-- The scripts of all code points, as runs. -/
def scriptRuns : List Run := Run.ofLines scriptLines

/-- The characters that are used with a few scripts, by the codes of these scripts. -/
def sharedLines : List (String × String) :=
  [("Adlm", "61F 640 204F 2E41"), ("Aghb", "304 331 35E"),
    ("Arab", "60C 61B-61C 61F 640 64B-655 660-669 670 6D4 204F 2E41 FD3E-FD3F FDF2 FDFD"),
    ("Arab", "102E0-102FB"), ("Armn", "308 589"), ("Avst", "B7 2E30-2E31"),
    ("Beng", "2BC 951-952 964-965 9E6-9EF 1CD0 1CD2 1CD5-1CD6 1CD8 1CE1 1CEA 1CED 1CF2"),
    ("Beng", "1CF5-1CF7 A8F1"),
    ("Bopo", "2C7 2C9-2CB 2D9 3001-3003 3008-3011 3013-301F 302A-302D 3030 3037 30FB"),
    ("Bopo", "FE45-FE46 FF61-FF65"), ("Bugi", "A9CF"), ("Buhd", "1735-1736"),
    ("Cakm", "9E6-9EF 1040-1049"), ("Cari", "B7 205A 205D 2E31"),
    ("Cher", "300-302 304 30B-30C 323-324 330-331"),
    ("Copt", "B7 300 304-305 307 374-375 2E17 102E0-102FB"), ("Cpmn", "10100-10101"),
    ("Cprt", "10100-10102 10107-10133 10137-1013F"),
    ("Cyrl", "2BC 300-302 304 306 308 30B 311 483-487 1DF8 2E43 A66F"),
    ("Deva", "2BC 951-952 964-96F 1CD0-1CF6 1CF8-1CF9 20F0 A830-A839 A8F1 A8F3"),
    ("Dogr", "964-96F A830-A839"), ("Dupl", "B7 307-308 30A 323-324 2E3C 1BCA0-1BCA3"),
    ("Elba", "B7 305"), ("Ethi", "30E"), ("Gara", "60C 61B 61F"),
    ("Geor", "B7 589 10FB 205A 2E31"), ("Glag", "B7 303 305 484 487 589 10FB 205A 2E43 A66F"),
    ("Gong", "B7 964-965"), ("Gonm", "964-965"), ("Goth", "B7 304-305 308 331"),
    ("Gran", "951-952 964-965 BE6-BF3 1CD0 1CD2-1CD3 1CF2-1CF4 1CF8-1CF9 20F0 11301 11303"),
    ("Gran", "1133B-1133C 11FD0-11FD1 11FD3"),
    ("Grek", "B7 300-301 304 306 308 313 342 345 374-375 1DC0-1DC1 205D"),
    ("Gujr", "951-952 964-965 AE6-AEF A830-A839"), ("Gukh", "965"),
    ("Guru", "951-952 964-965 A66-A6F A830-A839"),
    ("Hang", "3001-3003 3008-3011 3013-301F 3030 3037 30FB FE45-FE46 FF61-FF65"),
    ("Hani", "B7 2FF0-2FFF 3001-3003 3006 3008-3011 3013-301F 302A-302D 3030 3037 303C-303F"),
    ("Hani", "30FB 3190-319F 31C0-31E5 31EF 3220-3247 3280-32B0 32C0-32CB 32FF 3358-3370"),
    ("Hani", "337B-337F 33E0-33FE A700-A707 FE45-FE46 FF61-FF65 1D360-1D371 1F250-1F251"),
    ("Hano", "1735-1736"), ("Hebr", "307-308"),
    ("Hira", "3001-3003 3008-3011 3013-301F 3030-3035 3037 303C-303D 3099-309C 30A0"),
    ("Hira", "30FB-30FC FE45-FE46 FF61-FF65 FF70 FF9E-FF9F"), ("Hung", "205A 205D 2E31 2E41"),
    ("Java", "A9CF"), ("Kali", "A92E"),
    ("Kana", "305 323 3001-3003 3008-3011 3013-301F 3030-3035 3037 303C-303D 3099-309C 30A0"),
    ("Kana", "30FB-30FC FE45-FE46 FF61-FF65 FF70 FF9E-FF9F"), ("Khoj", "AE6-AEF A830-A839"),
    ("Knda", "951-952 964-965 CE6-CEF 1CD0 1CD2-1CD3 1CDA 1CF2 1CF4 A830-A835"),
    ("Kthi", "966-96F 2E31 A830-A839"),
    ("Latn", "B7 2BC 2C7 2C9-2CB 2CD 2D7 2D9 300-30E 310-311 313 323-325 32D-32E 330-331 358"),
    ("Latn", "35E 363-36F 485-486 951-952 10FB 1DF8 202F 20F0 2E17 A700-A707 A92E"),
    ("Limb", "965"), ("Lina", "10107-10133"), ("Linb", "10100-10102 10107-10133 10137-1013F"),
    ("Lisu", "2BC 2CD 300A-300B"), ("Lyci", "205A"), ("Lydi", "B7 2E31"),
    ("Mahj", "B7 964-96F A830-A839"), ("Mand", "640"), ("Mani", "640 10AF2"), ("Mero", "205D"),
    ("Mlym", "951-952 964-965 1CDA 1CF2 A830-A832"), ("Modi", "A830-A839"),
    ("Mong", "1802-1803 1805 202F 3001-3002 3008-300B"), ("Mult", "A66-A6F"),
    ("Mymr", "1040-1049 A92E"), ("Nand", "951 964-965 CE6-CEF 1CE9 1CF2 1CFA A830-A835"),
    ("Newa", "951-952 1CD5 1CD7-1CD8 1CE2 1CE9 1CEB 1CED"), ("Nkoo", "60C 61B 61F FD3E-FD3F"),
    ("Onao", "964-965"), ("Orkh", "205A 2E30"), ("Orya", "951-952 964-965 1CDA 1CF2"),
    ("Osge", "301 304 30B 358"), ("Ougr", "640 10AF2"), ("Perm", "B7 300 306-308 313 483"),
    ("Phag", "1802-1803 1805 202F 3002"), ("Phlp", "640"), ("Rohg", "60C 61B 61F 640 6D4"),
    ("Runr", "16EB-16ED"), ("Samr", "2E31"), ("Shaw", "B7"),
    ("Shrd", "951 1CD7 1CD9 1CDC-1CDD 1CE0 1CEA 1CED A830-A835 A838"),
    ("Sind", "964-965 A830-A839"), ("Sinh", "964-965 1CF2"), ("Sogd", "640"),
    ("Sunu", "300-301 303 30D 310 32D 331"), ("Sylo", "964-965 9E6-9EF"),
    ("Syrc", "303-304 307-308 30A 323-325 32D-32E 330-331 60C 61B-61C 61F 640 64B-655 670"),
    ("Syrc", "1DF8 1DFA"), ("Tagb", "1735-1736"), ("Takr", "964-965 A830-A839"),
    ("Tale", "300-301 307-308 30C 1040-1049"),
    ("Taml", "951-952 964-965 BE6-BF3 1CDA A8F3 11301 11303 1133B-1133C 11FD0-11FD1 11FD3"),
    ("Tang", "2FF0-2FFF 31EF"), ("Telu", "951-952 964-965 1CD5-1CD6 1CD8 1CDA 1CF2"),
    ("Tfng", "302 304 306-309 323"), ("Tglg", "1735-1736"),
    ("Thaa", "60C 61B-61C 61F 660-669 FDF2 FDFD"), ("Thai", "2BC 2D7 303 331"),
    ("Tibt", "3008-300B"), ("Tirh", "951-952 964-965 1CD5 1CE2 1CF2 A830-A839"),
    ("Todr", "301 304 307 311 313 35E"), ("Toto", "2BC"),
    ("Tutg", "CE6-CEF 1CF2 1CF4 A830-A835 A8F1"), ("Yezi", "60C 61B 61F 660-669"),
    ("Yiii", "3001-3002 3008-3011 3014-301B 30FB FF61-FF65")]

/-- The names of the scripts, by their codes. -/
def scriptNames : List (String × String) :=
  [("Adlm", "Adlam"), ("Aghb", "Caucasian_Albanian"), ("Ahom", "Ahom"), ("Arab", "Arabic"),
    ("Armi", "Imperial_Aramaic"), ("Armn", "Armenian"), ("Avst", "Avestan"), ("Bali", "Balinese"),
    ("Bamu", "Bamum"), ("Bass", "Bassa_Vah"), ("Batk", "Batak"), ("Beng", "Bengali"),
    ("Bhks", "Bhaiksuki"), ("Bopo", "Bopomofo"), ("Brah", "Brahmi"), ("Brai", "Braille"),
    ("Bugi", "Buginese"), ("Buhd", "Buhid"), ("Cakm", "Chakma"), ("Cans", "Canadian_Aboriginal"),
    ("Cari", "Carian"), ("Cham", "Cham"), ("Cher", "Cherokee"), ("Chrs", "Chorasmian"),
    ("Copt", "Coptic"), ("Copt", "Qaac"), ("Cpmn", "Cypro_Minoan"), ("Cprt", "Cypriot"),
    ("Cyrl", "Cyrillic"), ("Deva", "Devanagari"), ("Diak", "Dives_Akuru"), ("Dogr", "Dogra"),
    ("Dsrt", "Deseret"), ("Dupl", "Duployan"), ("Egyp", "Egyptian_Hieroglyphs"),
    ("Elba", "Elbasan"), ("Elym", "Elymaic"), ("Ethi", "Ethiopic"), ("Gara", "Garay"),
    ("Geor", "Georgian"), ("Glag", "Glagolitic"), ("Gong", "Gunjala_Gondi"),
    ("Gonm", "Masaram_Gondi"), ("Goth", "Gothic"), ("Gran", "Grantha"), ("Grek", "Greek"),
    ("Gujr", "Gujarati"), ("Gukh", "Gurung_Khema"), ("Guru", "Gurmukhi"), ("Hang", "Hangul"),
    ("Hani", "Han"), ("Hano", "Hanunoo"), ("Hatr", "Hatran"), ("Hebr", "Hebrew"),
    ("Hira", "Hiragana"), ("Hluw", "Anatolian_Hieroglyphs"), ("Hmng", "Pahawh_Hmong"),
    ("Hmnp", "Nyiakeng_Puachue_Hmong"), ("Hung", "Old_Hungarian"), ("Ital", "Old_Italic"),
    ("Java", "Javanese"), ("Kali", "Kayah_Li"), ("Kana", "Katakana"), ("Kawi", "Kawi"),
    ("Khar", "Kharoshthi"), ("Khmr", "Khmer"), ("Khoj", "Khojki"),
    ("Kits", "Khitan_Small_Script"), ("Knda", "Kannada"), ("Krai", "Kirat_Rai"),
    ("Kthi", "Kaithi"), ("Lana", "Tai_Tham"), ("Laoo", "Lao"), ("Latn", "Latin"),
    ("Lepc", "Lepcha"), ("Limb", "Limbu"), ("Lina", "Linear_A"), ("Linb", "Linear_B"),
    ("Lisu", "Lisu"), ("Lyci", "Lycian"), ("Lydi", "Lydian"), ("Mahj", "Mahajani"),
    ("Maka", "Makasar"), ("Mand", "Mandaic"), ("Mani", "Manichaean"), ("Marc", "Marchen"),
    ("Medf", "Medefaidrin"), ("Mend", "Mende_Kikakui"), ("Merc", "Meroitic_Cursive"),
    ("Mero", "Meroitic_Hieroglyphs"), ("Mlym", "Malayalam"), ("Modi", "Modi"),
    ("Mong", "Mongolian"), ("Mroo", "Mro"), ("Mtei", "Meetei_Mayek"), ("Mult", "Multani"),
    ("Mymr", "Myanmar"), ("Nagm", "Nag_Mundari"), ("Nand", "Nandinagari"),
    ("Narb", "Old_North_Arabian"), ("Nbat", "Nabataean"), ("Newa", "Newa"), ("Nkoo", "Nko"),
    ("Nshu", "Nushu"), ("Ogam", "Ogham"), ("Olck", "Ol_Chiki"), ("Onao", "Ol_Onal"),
    ("Orkh", "Old_Turkic"), ("Orya", "Oriya"), ("Osge", "Osage"), ("Osma", "Osmanya"),
    ("Ougr", "Old_Uyghur"), ("Palm", "Palmyrene"), ("Pauc", "Pau_Cin_Hau"),
    ("Perm", "Old_Permic"), ("Phag", "Phags_Pa"), ("Phli", "Inscriptional_Pahlavi"),
    ("Phlp", "Psalter_Pahlavi"), ("Phnx", "Phoenician"), ("Plrd", "Miao"),
    ("Prti", "Inscriptional_Parthian"), ("Rjng", "Rejang"), ("Rohg", "Hanifi_Rohingya"),
    ("Runr", "Runic"), ("Samr", "Samaritan"), ("Sarb", "Old_South_Arabian"),
    ("Saur", "Saurashtra"), ("Sgnw", "SignWriting"), ("Shaw", "Shavian"), ("Shrd", "Sharada"),
    ("Sidd", "Siddham"), ("Sind", "Khudawadi"), ("Sinh", "Sinhala"), ("Sogd", "Sogdian"),
    ("Sogo", "Old_Sogdian"), ("Sora", "Sora_Sompeng"), ("Soyo", "Soyombo"), ("Sund", "Sundanese"),
    ("Sunu", "Sunuwar"), ("Sylo", "Syloti_Nagri"), ("Syrc", "Syriac"), ("Tagb", "Tagbanwa"),
    ("Takr", "Takri"), ("Tale", "Tai_Le"), ("Talu", "New_Tai_Lue"), ("Taml", "Tamil"),
    ("Tang", "Tangut"), ("Tavt", "Tai_Viet"), ("Telu", "Telugu"), ("Tfng", "Tifinagh"),
    ("Tglg", "Tagalog"), ("Thaa", "Thaana"), ("Thai", "Thai"), ("Tibt", "Tibetan"),
    ("Tirh", "Tirhuta"), ("Tnsa", "Tangsa"), ("Todr", "Todhri"), ("Toto", "Toto"),
    ("Tutg", "Tulu_Tigalari"), ("Ugar", "Ugaritic"), ("Vaii", "Vai"), ("Vith", "Vithkuqi"),
    ("Wara", "Warang_Citi"), ("Wcho", "Wancho"), ("Xpeo", "Old_Persian"), ("Xsux", "Cuneiform"),
    ("Yezi", "Yezidi"), ("Yiii", "Yi"), ("Zanb", "Zanabazar_Square"), ("Zinh", "Inherited"),
    ("Zinh", "Qaai"), ("Zyyy", "Common")]

end TaggedYaml.Unicode
