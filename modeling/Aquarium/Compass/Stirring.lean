/-!
# Stirring words

The fixed words that are mixed into the register of a generator when it is seeded.
-/

namespace Aquarium.Generator

set_option maxRecDepth 8000 in
/-- One word for each place of the register. -/
def stirring : Vector UInt64 607 :=
  #v[0xC5F74A33EB98FFEA, 0xC07B4A41BA965F5B, 0x135EC513CB81AF0F, 0x4A04FB5CA74395EB,
    0xA7E8831C7710CF8E, 0x7D5DE4E88F37C1C3, 0x6321CF7743FF85A9, 0x42CB06556A9FF961,
    0x6E26C8D140E8D7D2, 0x49A7511F3411FAA0, 0x71ED774922A65055, 0x9D5C9FC65FEA2D5C,
    0x3FBDAB394A014368, 0x70FA33596992340B, 0xAE10FB4ECEA66A02, 0xF79FBCA98BBCD18A,
    0x97F7CCB12EA380AC, 0x0191D794CAF32B1B, 0x3F6A323424E32CAF, 0xC642CC921F01142B,
    0xA122869F4FF38068, 0xA5B1A31127AF3920, 0x5B07A4F9BDC29D96, 0x6A2A973C29812586,
    0x6AA433DBF77A52E1, 0x8394216E3B8AC99E, 0xDB80A9C5515B997C, 0x03C3F2EFF3CBF769,
    0xA6B5E431EEFF210C, 0x0EC85334992953F5, 0x2E6A1432DF10D1E9, 0xBDE4629959D1B149,
    0x67994C3876387951, 0x0E15D461559BAE63, 0xBDBF96C4E9D2A077, 0xB04F62866ADA20F3,
    0x2190DA1646DB97BF, 0x5071873C1832957A, 0x3E3B503A19DA904B, 0x33E388A5F2C78528,
    0xBEC70BAC19D0E877, 0x00256970F81BF072, 0xF7D18A14F64FA886, 0xA46EF978B4D4734C,
    0x782FF1573127A78E, 0x00241B0AD59BEBA6, 0xDAC549591FE95B2F, 0x6195FAF2884C2D39,
    0x569C2BBDB0EF345D, 0x0B8B6039508CE21E, 0xEF1576705435D2BB, 0x1D5E900AF5F1D8F7,
    0x1E902D187D7FD437, 0x7F227B7C8FE0EB79, 0x38790E6201EBBB98, 0x44818EAC7922E171,
    0x0658D6C550DAD340, 0x84BFB894CC72969A, 0xA7855141E3B329BD, 0x9CB31556B1BAE746,
    0x3CA09004F9686F49, 0x0C50146D7E508769, 0xCD35D8FF935AC970, 0xDE9818B4AA1554D8,
    0x4DF37EFD6433DAA0, 0xF591E9AD05B2E056, 0x1767EB0BDBF83E29, 0xB8247292535299F2,
    0xBAE645975A5E4CEB, 0xECEA78155C3BC32B, 0x4E295E5357ACE86E, 0x8B906A9A4FADBB08,
    0xFD50086AF64463C9, 0xAD0385ACFD19D6FC, 0xBBE6D4A5E1D13A9F, 0xFC099F33B79B039C,
    0xD9782224840C5A35, 0x174E38BC45D51ACF, 0x53F82F9F54DE4E3E, 0xE10DFA0A87B3EF0E,
    0xEA09D9EC7B439769, 0x519EC3C7CC4C5011, 0x0B47990FC413E3D5, 0x3F07E07ECFCE5BE2,
    0xA5D2D0B8B71922BE, 0x451EEA1FC87CC761, 0xC8505EDEF7F1D6DD, 0xFB6ED78E001CE905,
    0xD7CC0A3644F468BA, 0x14C231DB2E4429D0, 0xE21CCD9A90943DD3, 0x664869F5288FC2D1,
    0xDDC56F604E168FB5, 0x4151E4ABB0B1FAF6, 0xEC9647E8CEA7B927, 0x76A742187DBE61DE,
    0x80778D4049780E3C, 0x92714446C26CE413, 0x65475BC019E7700B, 0x0E08781D60D86D17,
    0x9F0F0FE9D5F571E0, 0x476E62BF33886E57, 0x8C710CFF524EB4E6, 0x24E856A59E3899A5,
    0x549F7C8B5783189A, 0x9808539C06020014, 0xB8FC59EEB2515467, 0xF38FFF8B8499A614,
    0xF5A62BE73A3D5222, 0x508B82832B4C4838, 0xF5109FC7682FF8DE, 0xD31CADF15CC53F0C,
    0xC1720509406B5826, 0xE900715210BC96FA, 0x0704FE3536D393FB, 0xC65C9B6ECCAEFB4A,
    0x8BAFC73092BE4019, 0x07F0B599D77889EA, 0x18DE0A49B8FA589B, 0x2F174E71C9830FF0,
    0xB470B780A26785DD, 0x20A6B76123B162BE, 0x91EFBD24CDC58322, 0xFB7BB75026B32623,
    0xD03D1CAF9A1F04D0, 0xA5F0F909BCAEE921, 0x46AA7CED9D1C8E0B, 0xFCD8A79E7A62B6F9,
    0x3AC4CF05BCE83F14, 0x45C579A008A037C4, 0x4053888E527912D0, 0xF88FA0B2289F7B17,
    0x51FBAF5D2002BDDA, 0x8AE403A812CA4784, 0x0D7EA237329FA450, 0xCB3F04BF02B6F208,
    0xC796643E8A39ED33, 0xFD92D79ED75B6419, 0x216821C8B258E8AC, 0xE93D3AFF7B46E931,
    0x36B0858CFCB72B6A, 0xAE5E3C9FE7FF1167, 0x2AF4C395391CC2A5, 0xE6C4FD076FEB7676,
    0x50EFB5FB31EDE773, 0x6D7F243359DBFCAE, 0x7193E740340E0FDB, 0x8FF51F73A4C6DD92,
    0x94534B6EFA1CA966, 0xC06A724520D70D41, 0x30CD16BD19120592, 0x8D456B580C2CD6DC,
    0x5C62BC0D6A8429EF, 0x48744EA9B8E9395E, 0x18EF14825C84AEE1, 0x4A1E32B73A71E234,
    0x0FEE6F27C45228C0, 0x464E2E3BE0D2E4A1, 0x23BB67F482E16008, 0x0F11B541E8247327,
    0xAE7DF90C7D2AAFD7, 0x54E1F496142C391A, 0x1D400EF625FA4274, 0x9906966610CE9E13,
    0x22455934D7C1CCDA, 0xE6414239B7DA9220, 0xB49F9091F6275556, 0x82916B3D64288ABD,
    0x9F52D0A1C7066FA0, 0x642A666CFB8CF0A1, 0x8C9D981DB063AD83, 0x63DFA26158B67E4A,
    0xCE3CFE36EBECC2DF, 0xB6E4EB2BA55364FF, 0x6FD2179E0D7717D1, 0xB971A2B7362247DB,
    0xDBE5CF25D510C53B, 0x930F28AD73735261, 0x5A95DD01047FEB8B, 0x30ADB1407358B45A,
    0x7FB44776784C1083, 0x1B20E8F4EB075406, 0xDC275F40B6C7C0D9, 0x732DF8DDA67B0F27,
    0xB62637AFC484C885, 0x61C98649838BF631, 0xDF061FEE30277F58, 0x95D322052DAC1455,
    0x7AD30486E478AEE9, 0x3267221F4ACED145, 0x479807052C3566B8, 0xA8025350A77EA0B9,
    0x421A7EC2FC169CD3, 0x57273AB05129A700, 0xBAE4F7FB719F43F2, 0x1C5BD857E8B8BF48,
    0xDAD594186971F359, 0x3F518AAD9C427014, 0x4C43C3B8CC8E8218, 0x981FBA566F92DFB7,
    0x07ACAAC55435C0AC, 0x5FB0881038CBBC8F, 0xF243B5556CBEBA73, 0x63149F303BE79FD4,
    0xF6AADE431F712475, 0x4CD2A557B6CBC24B, 0x21BC6975C169DE72, 0xCAF78CF40C768134,
    0xF13CDD624A12159F, 0xD573D0041B390D3E, 0x69EA8BD93BADE806, 0x578BAF3D78CD61F2,
    0x3318A93A7F689DC9, 0x2DA7501CBDBE5235, 0x5B6D448C9BB11200, 0x036566CA66F231B4,
    0xB89E51E9E2B737E4, 0x704687541C9B68CF, 0x28DF28A35D2937C9, 0x8BFEB2756944B0B5,
    0x29C24143C2234E9C, 0xF4FD794F8D02068F, 0x0590F068DF15E57D, 0xE4AD98ADAB8DC009,
    0x4155B1828194A406, 0xCE463027D4FF743F, 0xD306231168EC0845, 0xAE01984986C0C339,
    0xCC61983656980E5A, 0xB6B4B212AF3D051A, 0x70AAF14A706CE17A, 0x3547CBC995DE3A40,
    0x6202B8D9E9E8565F, 0x8A49EA181DDBAC34, 0x53A7BCB92853CE41, 0xA2AA132546A16F3A,
    0xD6C166634BC92862, 0x92FF6ACEBC93A071, 0x7A403280A96CEA51, 0x5A183B8F81665A24,
    0x222B4C80D2C0E464, 0x859E3D4D58BA3AA6, 0xB9A28389CB2FE563, 0x83A20CB89512FEE4,
    0xCBD691B061B30CBD, 0x8839BAF8F3AC9F09, 0x5DDF03B3EDD1C4B8, 0xF62694C4CB82ED09,
    0xD0C603B9879BD360, 0x8558DAF780426657, 0xC87FDB1B629E32AB, 0xD77938D516862FE1,
    0xE33A56962759EC00, 0x051BC82F174B90D9, 0xAB3B5DEBCAD25C86, 0xA8766BD0DD9B35DB,
    0x425F26B683CA1487, 0x5D3C2B40A076F653, 0x7464E98A72F8D634, 0x2F02DD3EEA4E7841,
    0x40977FE842527877, 0xFBF01AD4922B1D62, 0xCA959C2A8B4EEA29, 0x69CA7CA110533802,
    0x6B36496357247BD9, 0x7F7C07645CA7B232, 0xB8C63FA50AE3677B, 0xA0B7FD74703947D8,
    0x231FB1A0DC8CE079, 0x16B63342B7C96E77, 0xCD39A909D7E68027, 0x1427685B19CAECDD,
    0x9C9C6CD28E91B74D, 0x91C1FB790E0D3A54, 0x7E67D3BDB81BB611, 0xD396FC0D89F6E211,
    0x457EACFBB049EB22, 0x1DE1979BF5654DD5, 0x5D436CA7585D28CA, 0xD3D7E2863218D979,
    0x2FA7BE3CCF9D1645, 0x1FB7A7E17B9ECCB0, 0x2B2B1FCED929C282, 0xD85A90375E64310D,
    0xCB336A1611227DBD, 0x636925F5BAF870CD, 0x43E0D0254B84715E, 0x080EC57577219247,
    0x175EE40F58FBD971, 0x3D78CC365BADBCE1, 0x8495A07683903295, 0x8F89C0D3396A3B53,
    0x639BA81C88D888A6, 0x3FAF8D9C775CA781, 0xEAC40D3F519D2893, 0x01FE31D8C7DF7DC4,
    0x036D8003387DD6DB, 0x8C0621F768220A97, 0x59D6A8CC7A082707, 0x2AEA572AF8467560,
    0x1C910136C9FDF9C3, 0xC73EDDFE111385E2, 0x79EDB9A2A6A387DF, 0xD556D17ADCC5F6FB,
    0xF72709F96B28A3C7, 0x552D69F0428DCE6A, 0x9CBBB4BE9A92C216, 0x4F37AEF6CAF41C5D,
    0xD3431110CDD7A998, 0x3C7C1DE5B3CC1DCA, 0x048311A7625EABD9, 0x5EE41CB40CA81E2C,
    0x43385B68E51DBFFC, 0xD36A1F70D4F9A2FF, 0xCAEACCB927B0CB5C, 0x3FDDAE4163E010E4,
    0x0E7F5452A8C91EE0, 0x7E61315458970CCB, 0x8B821C0B10054C75, 0xC444CF11F9840608,
    0x2536B7A7602F6B4D, 0x331786D5A126F97F, 0xC9A9CD708372DB93, 0xD7E75A07542451DA,
    0xA4E5A10D28659104, 0x9024EBCBF8B8E6AF, 0x08137C3380F32523, 0x32A31118A95E425F,
    0xBD640B6140802B1E, 0x967E3CD0F12B1C5F, 0x031089E87FBAB9A7, 0xF11BFBB3BA3E0841,
    0x3B7FC3AD0D1CD36B, 0xBFB2F4D968B759C3, 0x4C8475564905D202, 0xE0A80B2A6236FA83,
    0x86A5B8671A833AE3, 0x79608828EB8FE58D, 0x032BCB9F5721E717, 0x12D224E5DC7E16DE,
    0x29E68B8251E0D495, 0x2BC04A7508CB08A3, 0x85F835A648329D25, 0x4D2799F797EC19A8,
    0x443AADC076F2ED10, 0x89357DE277E46717, 0xAF7907AEB63C9D6C, 0x27CE6BE004DB5B35,
    0x9BBF0228D95BF1D8, 0xAE31E17B25E1B363, 0x23E9429E957DB925, 0x950E5FAB3C7E6825,
    0x2AEA3671BF9F5933, 0xB2D2EF433932102C, 0x0D7ED21EC77FC8C1, 0xEA5F1280F48E6247,
    0x17B747CDF311AE42, 0xE001060EA9FA838E, 0xACA7508C5BCCFC84, 0xA3AAA0843F04F963,
    0xF949F7A4E8EBD3A5, 0x22876BDEFD41DF6C, 0xC124724F07E69E7C, 0xBF470DF23D5AA6B4,
    0x2998352099F590B8, 0x11CC90F45895653D, 0x03550DA1AB28F8D1, 0x7842CC5C2B1B34DB,
    0x08B79B3694AC8400, 0xBF72D50B84F96E2C, 0x947079F8EB08F590, 0x696CB72182050872,
    0xD4885BC9AC36D5A7, 0x6CB888B579FE97E1, 0x629482105204E4FD, 0x3CEF790816B93701,
    0xBDA77A26BE136556, 0xFB8F861314DDA828, 0x08A2B7B803AE5BCF, 0xD3C8A91ED0323140,
    0x870001A0B867EC3E, 0xE4F6C1F9B093DDE5, 0x8E086BECBC0B8378, 0x9E755197C06FFCC7,
    0x246705EE34F204F8, 0xC7927582D516264C, 0xB3E17BA47546133C, 0xA33F111B5CAAB4E2,
    0xA23D8E161443255E, 0x48F128B344D0819C, 0x6CD122FB39AB204D, 0x5C2910BF238F36AA,
    0x90AEAC10E05F9BBA, 0x9D54B6B00FE42ACA, 0xE88F64387A0FCDCB, 0xC45A205F01473609,
    0xC768ED8EB6B8C82D, 0xF225920D43FD23AC, 0x25BDAD5A8A817964, 0x7EBC9CEFB9015AAB,
    0x3C1EE78FA4EA733D, 0xE30E85D1757922A4, 0x61123DC5E081FE21, 0xDC86C11079674E66,
    0x8918973FB91AB9FB, 0x00D4EE55CA6D8C2A, 0xD500476D5215B5B5, 0xFC5068B3E2EA6D2A,
    0x205DA910DD23CB85, 0x979B5E11369F775B, 0x2BC872747D65EAD7, 0x96BA83AA2AC19DE7,
    0xA2258710D3A06BD5, 0x02BCFBD9169343E7, 0x88EECD99246B6273, 0x234B301B2D3C0302,
    0x3C61095D0931ECBF, 0xC1FBEAE253E44498, 0x9BF8D56E39D28810, 0xEF025E3275852770,
    0x3B81D83BC6A5B26D, 0x740E3AF17358A76B, 0x5A0491610C217837, 0xB234C04EE9707BBA,
    0xE8D67481CF12C324, 0x3DC1A80712DE14DF, 0x9646CD056265E405, 0xC9ED5B85FE5DE223,
    0xC034E6309514CA00, 0xA55CB1A9EA35E9BD, 0x83585DAC1418CF4C, 0xC6BFE6B67AE71DFA,
    0xEDDE6A8095841598, 0x8C478074A66108D3, 0x49F4FB28492601C4, 0x6C1F1E9A65E7ACB8,
    0x44C3F220E0A3A35F, 0xC4422797AC160D7E, 0xA9BED55A11AD2C15, 0x29BDBE2CDE52AC8D,
    0xA2486ED01638FB0C, 0x7BE91FDD8FA25058, 0x6D06C94A2118CF50, 0xBE19F2B9FCB649E5,
    0x6DA310D0DDEFE702, 0x9DB4D6197FE76870, 0xA1A8E96DD484EB63, 0xA2803DFD82F85916,
    0x3A1A0A44D7644C46, 0x1A25188BB552AA62, 0xFA3EAB18C620BD11, 0x33D24F4EDD10EA99,
    0x386D39256536CC6C, 0x607E759EFB2BA1E8, 0x921EBB3D7C6C6071, 0x96BA6B088F86692F,
    0xB2BD2AEAEAFED279, 0xB70CC2DEF3AB10AC, 0x2B1C1284B0B6DB2B, 0xD7D4C4DB5BBDFF92,
    0x3F5B8190A0A0241E, 0x1B79F6457E60CFAE, 0xA05C318C94181E91, 0x3480A671B033E3D5,
    0x7579955EFBBAA755, 0x2777C9F6D0C6B0D7, 0x2A0F21C2F6662C43, 0xC286B4BC45869BBC,
    0x3DE266B1C86ED249, 0x0596478EE80942C5, 0x6FD3618B2EE6AE1B, 0x3F08073A3E5DEA77,
    0x0E7847D01D6E71AF, 0xCD1F81AFC4FBAAFE, 0x24BE71C60778C940, 0x1DC2B6DF046A9621,
    0xD0944E93950F6CCF, 0xE2C767041EA34007, 0x521BF9C9206576C6, 0x866B7A2BD7715E51,
    0x7A97753C8C793641, 0x52DAAC19784A65E4, 0x07D3110B7C73F7EB, 0xA66B273FBCC429B7,
    0x16302DC85A75540A, 0xC840D3700A56E4DE, 0xD6875303FCD05BFF, 0xABBEED06A5E32588,
    0x758A6526F8636A3A, 0x01BE7ADAE8E62038, 0xC9B4BEC75BC4F40A, 0xDC7A69CE0A9FC1C3,
    0xF93F853C0ADBAA64, 0xBE48B8658E39D5B6, 0x5233CC88F307CB85, 0x81F48C566746E404,
    0xE6E72B2F3E111192, 0x6EE3AD5D7B4333D5, 0x3BEBF80ABF44E35E, 0x324F3DFA2996372C,
    0xA60900D584D3294F, 0xCFB39707D3E017C8, 0xD33CD1090A56F237, 0xFAE17AC7E5605D43,
    0xC8C0106F0EAD4419, 0x89BBA8037B2A60BE, 0x6999983C12A6557D, 0x29ECB289D4FC6351,
    0xDC4E3EC308888D22, 0x2492188C7C1156A7, 0x476502781CF85A10, 0x8E5D5DB3B1C10B44,
    0x15BFF6623BA91EB7, 0x716A28BBA3F09C65, 0xD7F47607C92F30F1, 0x9E04907834879DAD,
    0xA611C59795DB7099, 0x9A74C74315758AA3, 0x536D4C40116F3239, 0x52539AC587AD97D0,
    0x1F1A1675F28959C3, 0x8C6D78F5619E8324, 0x2AF1CFE563EFF7AD, 0x3F9D2212E5C94B1D,
    0x7E023D467B37B61F, 0xFAAB76ADABEEE96B, 0xCFF95DD9926B62D1, 0x3AA278A62172DB76,
    0x9982ABE519C8C867, 0x34C2118DF1F5857E, 0xFA7376B640136C80, 0x98A7D04CA29ADE2F,
    0x6D9F14B04D77E77E, 0x4B3DAD048BED47A1, 0x4C9EE5E4931D3231, 0xBAF4EBA543F33D0A,
    0x793AAFA07373D926, 0x986EA60FE6B39A32, 0xE31F344F666361E6, 0xF21CBEDC44C049CB,
    0xC4F752A0EB5E5403, 0xAF1B99E27D410520, 0x592740A0E5B8C3DD, 0x04FC4EA5FB446C97,
    0xAD6E587F47AFE7A6, 0xDE542C137B8384A4, 0x2A0FFC0F7B301E5C, 0x820547300A5D8AF4,
    0xD3C639C2087DC079, 0x0A467CA8709A2BB6, 0xE242BB6BB4DA36DE, 0x6079B0531EC90376,
    0x058CCF98DC1843F7, 0x8417B417B011AEC1, 0xECDEDD4FF0DD641B, 0x8C3787282349E832,
    0xD5F0BB8816E7E8FB, 0x85B650480FD8C2F4, 0x7D45AA734F760B6D, 0x5962428553D20814,
    0x400E2BA01968E7C4, 0x077E19B9A3F76000, 0x1D17558F6164030C, 0x79753148C0E6C59F,
    0x9A77D2F2EF3BD843, 0x666EB88D8701E16F, 0x5572E7CE34288668, 0xEB8D82B15491D607,
    0x77C265A71AEBBE54, 0x4947DDDD6F3E9E07, 0x628DFE635C795586, 0x22673E39D43FF99B,
    0x637E086DC78CF522, 0xEE37E3669F7E9C66, 0x92D7BB47A4AFE838, 0x1F9EABDFDBE2B7BD,
    0x324FCA6AF2B5C1D1, 0x59E4A152525B1B29, 0x7C91D10A8D75740E, 0xCC7C533A7FCA95D8,
    0x1266FBF77386B1DB, 0x689A66BA46D1C3BD, 0x4BD671B124B5701A, 0x2C43FD0A9EAEC04D,
    0x58143117E4E16555, 0x8358C5BB1248AC23, 0xAAF677BD80E30AC5, 0xFC997227A4F07F8F,
    0xA848CC5D9CB0E150, 0x640A711EB0E49B41, 0x64FCBFA01DCA3978, 0x980AAB2FFF6BC784,
    0x395C6750AA42E65E, 0x287FEA4C9695F3F4, 0x9516361749F6428A, 0xC977D592999F2194,
    0xC45166D9F6935FF8, 0xA7F503A28F431CA9, 0x51D3A3C351BE10EC, 0xF579E080162896E9,
    0xE5B5E9385B202824, 0xFBBA1E4A59B0C60C, 0xA8DE655829AAB207, 0xE1DE048DC78B382E,
    0x74535A96CC7ADFD7, 0x7E57A19B735EF03B, 0x39A00A3A31C025C6]

end Aquarium.Generator
